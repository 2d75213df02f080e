import IndexAdvisor.Program.Json
import IndexAdvisor.Proofs.Json.Codec
import IndexAdvisor.Proofs.Usage.Findings
import IndexAdvisor.Settings.Json
import IndexAdvisor.Usage.Json

/-!
# Records on the way through a document

Each kind of record has a codec, and the laws of that codec come from those of its fields: the
values under the declared names are the ones that were written (`record?_object`), and every field
has a reader of its own. A field may be left out, spelled otherwise or hold a set with repeats, so
that many documents have one value; they all have the value of the document that is written for it.

> `documents_round_trip`: lists of usages, lists of instructions, schemas and settings are read back
> from what is written for them, and however they are spelled, writing them anew changes nothing.

The one thing a value needs is that its numbers are in the range that is read, as those of every
value read from a document are.
-/

namespace IndexAdvisor

open Json

/-! ## Sets -/

section Sets

variable {α : Type} [DecidableEq α] {c : Codec α}

theorem OrderedSet.ofList_toList (s : OrderedSet α) : OrderedSet.ofList s.toList = s := by
  apply OrderedSet.ext
  rw [OrderedSet.ofList, toList_insertAll_of_nodup _ s.nodup]
  simp

theorem OrderedSet.ofJson?_toJson {write : α → Json} {read? : Json → Option α} {s : OrderedSet α}
    (h : ∀ a ∈ s.toList, read? (write a) = some a) :
    OrderedSet.ofJson? read? (s.toJson write) = some s := by
  rw [OrderedSet.ofJson?, OrderedSet.toJson, list?_map h, Option.map_some, OrderedSet.ofList_toList]

/-- A set of values, as an array in the order of the set. -/
def Json.Codec.set (c : Codec α) : Codec (OrderedSet α) where
  write := OrderedSet.toJson c.write
  read? := OrderedSet.ofJson? c.read?
  Fits s := ∀ a ∈ s.toList, c.Fits a

theorem Json.Codec.Lawful.set (h : c.Lawful) : c.set.Lawful where
  plain _ := plain_array_map h.plain
  read_write _ hs := OrderedSet.ofJson?_toJson fun a ha => h.read_write a (hs a ha)
  fits v s hread a ha := by
    obtain ⟨as, has, rfl⟩ := Option.map_eq_some_iff.1 hread
    rw [OrderedSet.ofList, OrderedSet.mem_insertAll] at ha
    exact forall_mem_of_list? h.fits has a (by simpa using ha)

end Sets

theorem ObjectKind.ofName?_name (k : ObjectKind) : ObjectKind.ofName? k.name = some k := by
  cases k <;> decide

/-! ## Instructions -/

/-- How instructions are written and read. -/
def Instr.codec : Codec Instr := ⟨Instr.toJson, Instr.ofJson?, fun i => fitsInt64 i.address = true⟩

theorem Instr.lawful : Instr.codec.Lawful where
  plain i := .object (by simp [Plain.number, Plain.string, plain_ofString?])
  read_write i hi := by
    have hrecord : i.toJson.record? fields = some [.number i.address, .string i.name,
        .ofString? i.p1, .ofString? i.p2, .ofString? i.p3, .ofString? i.p4, .ofString? i.p5,
        .string i.comment] :=
      record?_object rfl (by decide)
    simp [codec, ofJson?, hrecord, int64?_number hi, string?, nullOr?_ofString?]
  fits v i h := by
    obtain ⟨values, -, h⟩ := Option.bind_eq_some_iff.1 h
    split at h
    · simp only [Option.bind_eq_bind, Option.bind_eq_some_iff, Option.pure_def,
        Option.some.injEq] at h
      obtain ⟨address, haddress, _, -, _, -, _, -, _, -, _, -, _, -, _, -, rfl⟩ := h
      exact fits_of_int64? haddress
    · simp at h

/-! ## Schemas -/

/-- How tables are written and read. -/
def Table.codec : Codec Table := ⟨Table.toJson, Table.ofJson?, fun t => t.rootPage ≤ maxWord64⟩

/-- How indexes are written and read. -/
def Index.codec : Codec Index := ⟨Index.toJson, Index.ofJson?, fun i => i.rootPage ≤ maxWord64⟩

/-- How schemas are written and read. -/
def Schema.codec : Codec Schema where
  write := Schema.toJson
  read? := Schema.ofJson?
  Fits s := Table.codec.list.Fits s.tables ∧ Index.codec.list.Fits s.indexes

theorem Table.lawful : Table.codec.Lawful where
  plain t := .object (by simp [Plain.number, Plain.string, plain_ofString?, ofNat, plain_ofStrings])
  read_write t ht := by
    have hrecord : t.toJson.record? fields = some [.string t.name, .ofNat t.rootPage,
        .ofStrings t.columns, .ofString? t.primaryKey] := record?_object rfl (by decide)
    simp [codec, ofJson?, hrecord, string?, nat64?, nat?_ofNat ht, list?_ofStrings,
      nullOr?_ofString?]
  fits v t h := by
    obtain ⟨values, -, h⟩ := Option.bind_eq_some_iff.1 h
    split at h
    · simp only [Option.bind_eq_bind, Option.bind_eq_some_iff, Option.pure_def,
        Option.some.injEq] at h
      obtain ⟨_, -, rootPage, hrootPage, _, -, _, -, rfl⟩ := h
      exact le_of_nat? hrootPage
    · simp at h

theorem Index.lawful : Index.codec.Lawful where
  plain i := .object (by simp [Plain.number, Plain.string, Plain.bool, ofNat, plain_ofStrings])
  read_write i hi := by
    have hrecord : i.toJson.record? fields = some [.string i.name, .string i.table,
        .ofNat i.rootPage, .bool i.unique, .ofStrings i.columns] := record?_object rfl (by decide)
    simp [codec, ofJson?, hrecord, string?, bool?, nat64?, nat?_ofNat hi, list?_ofStrings]
  fits v i h := by
    obtain ⟨values, -, h⟩ := Option.bind_eq_some_iff.1 h
    split at h
    · simp only [Option.bind_eq_bind, Option.bind_eq_some_iff, Option.pure_def,
        Option.some.injEq] at h
      obtain ⟨_, -, _, -, rootPage, hrootPage, _, -, _, -, rfl⟩ := h
      exact le_of_nat? hrootPage
    · simp at h

theorem Schema.lawful : Schema.codec.Lawful where
  plain s :=
    .object (by simpa using ⟨Table.lawful.list.plain s.tables, Index.lawful.list.plain s.indexes⟩)
  read_write s hs := by
    have hrecord : s.toJson.record? fields = some [.array (s.tables.map Table.toJson),
        .array (s.indexes.map Index.toJson)] := record?_object rfl (by decide)
    have htables : list? Table.ofJson? (.array (s.tables.map Table.toJson)) = some s.tables :=
      Table.lawful.list.read_write s.tables hs.1
    have hindexes : list? Index.ofJson? (.array (s.indexes.map Index.toJson)) = some s.indexes :=
      Index.lawful.list.read_write s.indexes hs.2
    simp [codec, ofJson?, hrecord, htables, hindexes]
  fits v s h := by
    obtain ⟨values, -, h⟩ := Option.bind_eq_some_iff.1 h
    split at h
    · simp only [Option.bind_eq_bind, Option.bind_eq_some_iff, Option.pure_def,
        Option.some.injEq] at h
      obtain ⟨tables, htables, indexes, hindexes, rfl⟩ := h
      exact ⟨Table.lawful.list.fits _ _ htables, Index.lawful.list.fits _ _ hindexes⟩
    · simp at h

/-! ## Usages -/

/-- How indexes in use are written and read. -/
def IndexUse.codec : Codec IndexUse :=
  ⟨IndexUse.toJson, IndexUse.ofJson?, fun u => fitsInt64 u.cursor = true⟩

/-- How columns found through an index are written and read. -/
def IndexColumn.codec : Codec IndexColumn :=
  ⟨IndexColumn.toJson, IndexColumn.ofJson?, fun c => fitsInt64 c.cursor = true⟩

theorem IndexUse.lawful : IndexUse.codec.Lawful where
  plain u := .object (by simp [Plain.number, Plain.string])
  read_write u hu := by
    have hrecord : u.toJson.record? [.required "cursor_no", .required "index_name"] =
        some [.number u.cursor, .string u.index] := record?_object rfl (by decide)
    simp [codec, ofJson?, hrecord, int64?_number hu, string?]
  fits v u h := by
    obtain ⟨values, -, h⟩ := Option.bind_eq_some_iff.1 h
    split at h
    · simp only [Option.bind_eq_bind, Option.bind_eq_some_iff, Option.pure_def,
        Option.some.injEq] at h
      obtain ⟨cursor, hcursor, index, -, rfl⟩ := h
      exact fits_of_int64? hcursor
    · simp at h

theorem IndexColumn.lawful : IndexColumn.codec.Lawful where
  plain c := .object (by simp [Plain.number, Plain.string])
  read_write c hc := by
    have hrecord : c.toJson.record? [.required "cursor_no", .required "column"] =
        some [.number c.cursor, .string c.column] := record?_object rfl (by decide)
    simp [codec, ofJson?, hrecord, int64?_number hc, string?]
  fits v c h := by
    obtain ⟨values, -, h⟩ := Option.bind_eq_some_iff.1 h
    split at h
    · simp only [Option.bind_eq_bind, Option.bind_eq_some_iff, Option.pure_def,
        Option.some.injEq] at h
      obtain ⟨cursor, hcursor, column, -, rfl⟩ := h
      exact fits_of_int64? hcursor
    · simp at h

/-- Whether the numbers of a usage are in the range that is read. -/
structure Usage.Fits (u : Usage) : Prop where
  cursor : fitsInt64 u.cursor = true
  rootPage : u.rootPage ≤ maxWord64
  indexes : IndexUse.codec.set.Fits u.indexes
  filterIndexColumns : IndexColumn.codec.set.Fits u.filterIndexColumns
  sortIndexColumns : IndexColumn.codec.set.Fits u.sortIndexColumns
  coveringColumns : IndexColumn.codec.set.Fits u.coveringColumns

/-- How usages are written and read. -/
def Usage.codec : Codec Usage := ⟨Usage.toJson, Usage.ofJson?, Usage.Fits⟩

theorem Usage.lawful : Usage.codec.Lawful where
  plain u := by
    have htexts (s : OrderedSet String) : Plain (s.toJson .string) := plain_array_map .string
    have huses (s : OrderedSet IndexUse) : Plain (s.toJson IndexUse.toJson) :=
      IndexUse.lawful.set.plain s
    have hcolumns (s : OrderedSet IndexColumn) : Plain (s.toJson IndexColumn.toJson) :=
      IndexColumn.lawful.set.plain s
    exact .object (by simp [toFields, Plain.number, Plain.string, ofNat, htexts, huses, hcolumns])
  read_write u hu := by
    have htexts (s : OrderedSet String) : OrderedSet.ofJson? string? (s.toJson .string) = some s :=
      OrderedSet.ofJson?_toJson fun _ _ => rfl
    have hkind : (choice? (.string u.kind.name)).bind ObjectKind.ofName? = some u.kind :=
      u.kind.ofName?_name
    have hindexes : OrderedSet.ofJson? IndexUse.ofJson?
        (u.indexes.toJson IndexUse.toJson) = some u.indexes :=
      IndexUse.lawful.set.read_write _ hu.indexes
    have hcolumns {s : OrderedSet IndexColumn} (hs : IndexColumn.codec.set.Fits s) :
        OrderedSet.ofJson? IndexColumn.ofJson? (s.toJson IndexColumn.toJson) = some s :=
      IndexColumn.lawful.set.read_write s hs
    have hrecord : u.toJson.record? fields = some (u.toFields.map Prod.snd) :=
      record?_object rfl (by decide)
    show ofJson? u.toJson = some u
    rw [ofJson?, hrecord]
    dsimp only [toFields, List.map, Option.bind_eq_bind, Option.bind_some]
    rw [int64?_number hu.cursor, nat64?, nat?_ofNat hu.rootPage, hkind, hindexes,
      htexts u.filterColumns, htexts u.sortColumns, hcolumns hu.filterIndexColumns,
      hcolumns hu.sortIndexColumns, htexts u.filters, htexts u.columns, hcolumns hu.coveringColumns]
    rfl
  fits v u h := by
    obtain ⟨values, -, h⟩ := Option.bind_eq_some_iff.1 h
    split at h
    -- One field at a time: a `simp` over the whole record goes through its rest again at every
    -- field.
    · obtain ⟨cursor, hcursor, h⟩ := Option.bind_eq_some_iff.1 h
      obtain ⟨rootPage, hrootPage, h⟩ := Option.bind_eq_some_iff.1 h
      obtain ⟨kind, -, h⟩ := Option.bind_eq_some_iff.1 h
      obtain ⟨name, -, h⟩ := Option.bind_eq_some_iff.1 h
      obtain ⟨table, -, h⟩ := Option.bind_eq_some_iff.1 h
      obtain ⟨indexes, hindexes, h⟩ := Option.bind_eq_some_iff.1 h
      obtain ⟨filterColumns, -, h⟩ := Option.bind_eq_some_iff.1 h
      obtain ⟨sortColumns, -, h⟩ := Option.bind_eq_some_iff.1 h
      obtain ⟨filterIndexColumns, hfilter, h⟩ := Option.bind_eq_some_iff.1 h
      obtain ⟨sortIndexColumns, hsort, h⟩ := Option.bind_eq_some_iff.1 h
      obtain ⟨filters, -, h⟩ := Option.bind_eq_some_iff.1 h
      obtain ⟨columns, -, h⟩ := Option.bind_eq_some_iff.1 h
      obtain ⟨coveringIndex, -, h⟩ := Option.bind_eq_some_iff.1 h
      obtain ⟨coveringColumns, hcovering, h⟩ := Option.bind_eq_some_iff.1 h
      obtain rfl := Option.some.inj h
      exact {
        cursor := fits_of_int64? hcursor
        rootPage := le_of_nat? hrootPage
        indexes := IndexUse.lawful.set.fits _ _ hindexes
        filterIndexColumns := IndexColumn.lawful.set.fits _ _ hfilter
        sortIndexColumns := IndexColumn.lawful.set.fits _ _ hsort
        coveringColumns := IndexColumn.lawful.set.fits _ _ hcovering }
    · simp at h

/-! ## Settings -/

/-- How the database section is written and read. -/
def DatabaseSettings.codec : Codec DatabaseSettings :=
  ⟨DatabaseSettings.toJson, DatabaseSettings.ofJson?, fun _ => True⟩

/-- How the section of the advisor is written and read. -/
def AdvisorSettings.codec : Codec AdvisorSettings :=
  ⟨AdvisorSettings.toJson, AdvisorSettings.ofJson?, fun _ => True⟩

/-- How the section of the log is written and read. -/
def LogSettings.codec : Codec LogSettings :=
  ⟨LogSettings.toJson, LogSettings.ofJson?, fun _ => True⟩

/-- Whether the numbers of a pool are in the range that is read. -/
structure PoolSettings.Fits (s : PoolSettings) : Prop where
  size : s.size ≤ maxWord32
  queryLimit : s.queryLimit ≤ maxWord64
  connectLimit : s.connectLimit ≤ maxWord64
  schemaLifetime : s.schemaLifetime ≤ maxWord64
  maxRetries : s.maxRetries ≤ maxWord32

/-- How the pool section is written and read. -/
def PoolSettings.codec : Codec PoolSettings :=
  ⟨PoolSettings.toJson, PoolSettings.ofJson?, PoolSettings.Fits⟩

/-- How settings are written and read. -/
def Settings.codec : Codec Settings := ⟨Settings.toJson, Settings.ofJson?, fun s => s.pool.Fits⟩

theorem DatabaseSettings.lawful : DatabaseSettings.codec.Lawful where
  plain s := .object (by simp [Plain.string, Plain.bool])
  read_write s _ := by
    have hrecord : s.toJson.record? (toJson {}).fieldsOf = some [.string s.path, .bool s.readOnly,
        .bool s.createIfMissing] := record?_object rfl (by decide)
    simp [codec, ofJson?, hrecord, string?, bool?]
  fits _ _ _ := trivial

theorem PoolSettings.lawful : PoolSettings.codec.Lawful where
  plain s := .object (by simp [Plain.number, ofNat])
  read_write s hs := by
    have hrecord : s.toJson.record? (toJson {}).fieldsOf = some [.ofNat s.size, .ofNat s.queryLimit,
        .ofNat s.connectLimit, .ofNat s.schemaLifetime, .ofNat s.maxRetries] :=
        record?_object rfl (by decide)
    simp [codec, ofJson?, hrecord, nat32?, nat64?, nat?_ofNat hs.size, nat?_ofNat hs.queryLimit,
      nat?_ofNat hs.connectLimit, nat?_ofNat hs.schemaLifetime, nat?_ofNat hs.maxRetries]
  fits v s h := by
    obtain ⟨values, -, h⟩ := Option.bind_eq_some_iff.1 h
    split at h
    · simp only [Option.bind_eq_bind, Option.bind_eq_some_iff, Option.pure_def,
        Option.some.injEq] at h
      obtain ⟨_, hsize, _, hquery, _, hconnect, _, hlifetime, _, hretries, rfl⟩ := h
      exact ⟨le_of_nat? hsize, le_of_nat? hquery, le_of_nat? hconnect, le_of_nat? hlifetime,
        le_of_nat? hretries⟩
    · simp at h

theorem AdvisorSettings.lawful : AdvisorSettings.codec.Lawful where
  plain s := .object (by simp [Plain.bool])
  read_write s _ := by
    have hrecord : s.toJson.record? (toJson {}).fieldsOf =
        some [.bool s.subselects, .bool s.suggestions] :=
      record?_object rfl (by decide)
    simp [codec, ofJson?, hrecord, bool?]
  fits _ _ _ := trivial

theorem LogSettings.lawful : LogSettings.codec.Lawful where
  plain s := .object (by simp [Plain.string])
  read_write s _ := by
    have hrecord : s.toJson.record? (toJson {}).fieldsOf = some [.string s.level] :=
      record?_object rfl (by decide)
    simp [codec, ofJson?, hrecord, string?]
  fits _ _ _ := trivial

theorem Settings.lawful : Settings.codec.Lawful where
  plain s := .object (by
    simpa using ⟨DatabaseSettings.lawful.plain s.database, PoolSettings.lawful.plain s.pool,
      AdvisorSettings.lawful.plain s.advisor, LogSettings.lawful.plain s.log⟩)
  read_write s hs := by
    have hrecord : s.toJson.record? (toJson {}).fieldsOf = some [s.database.toJson, s.pool.toJson,
        s.advisor.toJson, s.log.toJson] := record?_object rfl (by decide)
    have hdatabase : DatabaseSettings.ofJson? s.database.toJson = some s.database :=
      DatabaseSettings.lawful.read_write _ trivial
    have hpool : PoolSettings.ofJson? s.pool.toJson = some s.pool :=
      PoolSettings.lawful.read_write _ hs
    have hadvisor : AdvisorSettings.ofJson? s.advisor.toJson = some s.advisor :=
      AdvisorSettings.lawful.read_write _ trivial
    have hlog : LogSettings.ofJson? s.log.toJson = some s.log :=
      LogSettings.lawful.read_write _ trivial
    simp [codec, ofJson?, hrecord, hdatabase, hpool, hadvisor, hlog]
  fits v s h := by
    obtain ⟨values, -, h⟩ := Option.bind_eq_some_iff.1 h
    split at h
    · simp only [Option.bind_eq_bind, Option.bind_eq_some_iff, Option.pure_def,
        Option.some.injEq] at h
      obtain ⟨_, -, _, hpool, _, -, _, -, rfl⟩ := h
      exact PoolSettings.lawful.fits _ _ hpool
    · simp at h

/-! ## Documents -/

/-- Usages, instructions, schemas and settings go through documents unchanged. -/
theorem documents_round_trip :
    Usage.codec.list.RoundTrips ∧ Instr.codec.list.RoundTrips ∧ Schema.codec.RoundTrips ∧
      Settings.codec.RoundTrips :=
  ⟨Usage.lawful.list.roundTrips, Instr.lawful.list.roundTrips, Schema.lawful.roundTrips,
    Settings.lawful.roundTrips⟩

/-- A usage spelled as an array, with a repeated column, a letter in hexadecimal and numbers at the
ends of their ranges. -/
theorem documents_round_trip_respelled :
    let text :=
      "[[-9223372036854775808,18446744073709551615,\"Table\",\"\\u0001\\u0041\",\"\",[]," ++
      "[\"b\",\"a\",\"b\"],[],[],[],[],[],\"\",[]]]"
    let u : Usage := {
      cursor := -0x8000000000000000
      rootPage := maxWord64
      kind := .table
      name := "\x01A"
      table := ""
      filterColumns := OrderedSet.ofList ["b", "a"] }
    Usage.codec.list.ofDocument? text = some [u] ∧ Usage.codec.list.Fits [u] ∧
      Usage.codec.list.ofDocument? (Usage.codec.list.document [u]) = some [u] := by
  intro text u
  have hread : Usage.codec.list.ofDocument? text = some [u] := by decide +kernel
  have hfits := documents_round_trip.1.ranged text [u] hread
  exact ⟨hread, hfits, documents_round_trip.1.written [u] hfits⟩

end IndexAdvisor
