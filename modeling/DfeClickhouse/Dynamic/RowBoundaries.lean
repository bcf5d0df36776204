import DfeClickhouse.Dynamic.CellBoundaries

/-!
# Row boundaries

A row is written cell by cell against the columns of a dynamic insert and cut again
against the native types of their type strings.
-/

namespace DfeClickhouse.Dynamic

open Library Native

variable {json : JsonText} {columns : List ColumnDef} {schema : List ColumnSchema}

/-- What the insert hands to the block writer for its columns. -/
def headers (columns : List ColumnDef) : List (String × String) :=
  columns.map fun column => (column.name, String.ofList column.ty.info.raw)

/-- Columns whose type strings both parsers accept, with the native columns. -/
structure Accepted (columns : List ColumnDef) (schema : List ColumnSchema) : Prop where
  parsed : ∀ column ∈ columns, ∃ typeStr, column.ty = .parse typeStr
  supported : ∀ column ∈ columns, isRefusedTag (encodingTag column.ty.info) = false
  native : ColumnSchema.fromHeaders (headers columns) = .ok schema
  once : ∀ column ∈ schema, nullableOnce column.colType = true

/-- A row of the columns, and what it was encoded to.  A raw text may stand for a
string or a JSON. -/
structure Encodes (json : JsonText) (columns : List ColumnDef) (row : DynamicRow)
    (bytes : Bytes) : Prop where
  columns_eq : row.columns = columns
  raw : ∀ column ∈ columns, row.rawFor column ≠ none →
    column.ty.info.tag = .string ∨ column.ty.info.tag = .json
  held : ∀ entry ∈ row.row, entry.2.nodes < addressSpace
  writes : Writer.Writes (row.encodeInto json) bytes
  room : bytes.length < addressSpace

/-- Rows are cut into exactly the cells that were written. -/
def BoundariesAgree (json : JsonText) (columns : List ColumnDef) (schema : List ColumnSchema) :
    Prop :=
  ∀ rows : List (DynamicRow × Bytes), (∀ row ∈ rows, Encodes json columns row.1 row.2) →
    ∃ cells, (rows.map Prod.snd).mapM (sliceRow schema) = .ok cells ∧
      List.Forall₂ (fun row pieces => List.Forall₂ (fun column cell =>
        Writer.Writes (row.1.encodeColumn json column) cell) columns pieces) rows cells

@[simp] theorem raw_parseText (text : Text) : (ParsedType.parseText text).info.raw = trim text := by
  rw [ParsedType.parseText_eq, ParsedType.parseCore]
  split
  · rfl
  · split
    · rfl
    · exact (plainInfo_fields _ _).raw

/-- The native columns of headers keep their names and type strings. -/
theorem fromHeaders_ok_iff {named : List (String × String)} :
    ColumnSchema.fromHeaders named = .ok schema ↔
      List.Forall₂ (fun header entry => ∃ columnType,
        ColumnType.parse header.2 = some columnType ∧
          entry = ⟨header.1, header.2, columnType⟩) named schema := by
  rw [ColumnSchema.fromHeaders, Reader.mapM_ok_iff]
  apply iff_of_eq
  congr 1
  funext header entry
  apply propext
  cases found : ColumnType.parse header.2 with
  | none => simp [found]
  | some columnType => simp [found, eq_comm]

/-- Both parsers agree on an accepted column. -/
theorem agrees_of_parse {column : ColumnDef} {columnType : ColumnType}
    (parsed : ∃ typeStr, column.ty = .parse typeStr)
    (native : ColumnType.parse (String.ofList column.ty.info.raw) = some columnType)
    (once : nullableOnce columnType = true) : Agrees column.ty columnType := by
  obtain ⟨typeStr, same⟩ := parsed
  rw [same] at native ⊢
  rw [ParsedType.parse, raw_parseText, ColumnType.parse, String.toList_ofList] at native
  apply parseText_agrees (Follows.trim_self _) _ once
  exact denotes_trim_iff.mpr native

/-- Both parsers agree on every accepted column. -/
theorem Accepted.agrees (accepted : Accepted columns schema) :
    List.Forall₂ (fun column entry => Agrees column.ty entry.colType) columns schema := by
  have named := fromHeaders_ok_iff.mp accepted.native
  rw [headers, List.forall₂_map_left_iff] at named
  apply List.forall₂_iff_zip.mpr
  refine ⟨named.length_eq, ?_⟩
  intro column entry member
  obtain ⟨columnType, found, rfl⟩ := List.forall₂_zip named member
  obtain ⟨isColumn, isEntry⟩ := List.of_mem_zip member
  exact agrees_of_parse (accepted.parsed column isColumn) found (accepted.once _ isEntry)

/-- A text for the encoder is a text for the native parser. -/
theorem PlainAgrees.isText {info : TypeInfo} {base : ColumnType} (agrees : PlainAgrees info base)
    (tag : info.tag = .fromBase info.base)
    (isText : info.tag = .string ∨ info.tag = .json) : isTextType base = true := by
  have notDecimal : info.base ≠ "Decimal".toList := by
    intro decimal
    rw [decimal] at tag
    have unknown : TypeTag.fromBase "Decimal".toList = .unknown := by decide
    rw [tag, unknown] at isText
    rcases isText with isText | isText <;> cases isText
  have tagged : encodingTag info = info.tag := if_neg notDecimal
  cases agrees with
  | text native => exact native
  | fixed _ _ encoder =>
      rw [cellWidth, tagged] at encoder
      rcases isText with isText | isText <;> rw [isText] at encoder <;> cases encoder
  | refused encoder =>
      rw [tagged] at encoder
      rcases isText with isText | isText <;> rw [isText] at encoder <;> cases encoder
  | loose _ _ _ encoder =>
      rw [tagged] at encoder
      rcases isText with isText | isText <;> rw [isText] at encoder <;> cases encoder

/-- A cell written from raw text is read as far as it was written. -/
theorem reads_rawCell {parsed : ParsedType} {columnType : ColumnType} {text : Bytes}
    (agrees : Agrees parsed columnType)
    (isText : parsed.info.tag = .string ∨ parsed.info.tag = .json)
    (room : text.length < addressSpace) :
    Reader.Reads (rbAdvance columnType)
      ((if parsed.info.nullable then [0] else []) ++ putString text) () := by
  cases agrees with
  | plain tag wraps agrees => exact reads_present wraps (reads_text (agrees.isText tag isText) room)
  | array _ tag =>
      change _ = _ ∨ _ = _ at isText
      rw [ParsedType.info, tag] at isText
      rcases isText with isText | isText <;> cases isText
  | map _ tag =>
      rw [ParsedType.info, tag] at isText
      rcases isText with isText | isText <;> cases isText

/-- The value of a column is one of the row's, or missing. -/
theorem nodes_lookup_lt {row : List (String × Value)} {name : String}
    (held : ∀ entry ∈ row, entry.2.nodes < addressSpace) :
    ((row.lookup name).getD .null).nodes < addressSpace := by
  cases found : row.lookup name with
  | none => decide
  | some value =>
      obtain ⟨before, after, same, _⟩ := List.lookup_eq_some_iff.mp found
      exact held (name, value) (by simp [same])

/-- The cell of a tight column is read as far as it was written. -/
theorem reads_encodeColumn {row : DynamicRow} {column : ColumnDef} {columnType : ColumnType}
    {cell : Bytes} (agrees : Agrees column.ty columnType) (tight : isLoose column.ty = false)
    (raw : row.rawFor column ≠ none →
      column.ty.info.tag = .string ∨ column.ty.info.tag = .json)
    (held : ∀ entry ∈ row.row, entry.2.nodes < addressSpace)
    (writes : Writer.Writes (row.encodeColumn json column) cell)
    (room : cell.length < addressSpace) : Reader.Reads (rbAdvance columnType) cell () := by
  rw [DynamicRow.encodeColumn] at writes
  split at writes
  · rename_i text found
    obtain ⟨rest, written, rfl⟩ := Writer.writes_put_bind_iff.mp writes
    obtain rfl := Writer.writes_put_iff.mp written
    rw [List.length_append] at room
    apply reads_rawCell agrees (raw (by simp [found]))
    exact length_putString_lt (by omega)
  · exact reads_encodeValue agrees tight (nodes_lookup_lt held) writes room

/-- Consecutive cells are cut where each of them is read. -/
theorem reads_cells {types : List ColumnType} {cells : List Bytes}
    (each : List.Forall₂ (fun columnType cell => Reader.Reads (rbAdvance columnType) cell ())
      types cells) : Reader.Reads (rbCells types) cells.flatten cells := by
  induction each with
  | nil => exact Reader.Reads.pure []
  | cons head _ ih =>
      rw [List.flatten_cons]
      exact head.consumed.bind ih.bind_pure

theorem sliceRow_of_reads {cells : List Bytes}
    (reads : Reader.Reads (rbCells (schema.map ColumnSchema.colType)) cells.flatten cells) :
    sliceRow schema cells.flatten = .ok cells := by
  have run := reads []
  rw [List.append_nil] at run
  change (rbCells (schema.map ColumnSchema.colType) cells.flatten >>= _) = _
  rw [run]
  rfl

/-- The cells of tight columns are read as far as they were written. -/
theorem reads_written {row : DynamicRow} {cells : List Bytes}
    (agrees : List.Forall₂ (fun column entry => Agrees column.ty entry.colType) columns schema)
    (tight : ∀ column ∈ columns, isLoose column.ty = false)
    (raw : ∀ column ∈ columns, row.rawFor column ≠ none →
      column.ty.info.tag = .string ∨ column.ty.info.tag = .json)
    (held : ∀ entry ∈ row.row, entry.2.nodes < addressSpace)
    (written : List.Forall₂ (fun column cell =>
      Writer.Writes (row.encodeColumn json column) cell) columns cells)
    (room : cells.flatten.length < addressSpace) :
    List.Forall₂ (fun entry cell => Reader.Reads (rbAdvance entry.colType) cell ())
      schema cells := by
  induction agrees generalizing cells with
  | nil =>
      cases written
      exact .nil
  | @cons column entry columns schema head _ ih =>
      cases written with
      | cons first others =>
          rw [List.flatten_cons, List.length_append] at room
          simp only [List.mem_cons, forall_eq_or_imp] at tight raw
          apply List.Forall₂.cons
          · exact reads_encodeColumn head tight.1 raw.1 held first (by omega)
          · exact ih tight.2 raw.2 others (by omega)

/-- A row without loose columns is cut as it was written. -/
theorem sliceRow_of_tight {row : DynamicRow} {bytes : Bytes} (accepted : Accepted columns schema)
    (tight : ∀ column ∈ columns, isLoose column.ty = false)
    (encodes : Encodes json columns row bytes) :
    ∃ cells, sliceRow schema bytes = .ok cells ∧ List.Forall₂ (fun column cell =>
      Writer.Writes (row.encodeColumn json column) cell) columns cells := by
  obtain ⟨same, raw, held, writes, room⟩ := encodes
  rw [DynamicRow.encodeInto, same, Writer.writes_each_iff] at writes
  obtain ⟨cells, written, rfl⟩ := writes
  refine ⟨cells, sliceRow_of_reads (reads_cells ?_), written⟩
  rw [List.forall₂_map_left_iff]
  exact reads_written accepted.agrees tight raw held written room

/-- Rows without loose columns are cut as they were written. -/
theorem boundariesAgree_of_tight (accepted : Accepted columns schema)
    (tight : ∀ column ∈ columns, isLoose column.ty = false) :
    BoundariesAgree json columns schema := by
  intro rows encodes
  induction rows with
  | nil => exact ⟨[], rfl, .nil⟩
  | cons row rows ih =>
      obtain ⟨pieces, cut, written⟩ := sliceRow_of_tight accepted tight (encodes row (by simp))
      obtain ⟨cells, others, each⟩ := ih fun row member => encodes row (by simp [member])
      refine ⟨pieces :: cells, ?_, .cons written each⟩
      exact Reader.mapM_ok_iff.mpr (.cons cut (Reader.mapM_ok_iff.mp others))

/-- A row with a probe for every loose column. -/
def probeRow (columns : List ColumnDef) : DynamicRow where
  row := (columns.filter fun column => isLoose column.ty).map fun column =>
    (column.name, probe column.ty)
  columns := columns

/-- Loose columns are probed, the others are left to their defaults. -/
theorem lookup_probeRow (distinct : (columns.map ColumnDef.name).Nodup) {column : ColumnDef}
    (member : column ∈ columns) :
    (probeRow columns).row.lookup column.name =
      if isLoose column.ty then some (probe column.ty) else none := by
  rw [probeRow]
  dsimp only
  induction columns with
  | nil => cases member
  | cons head columns ih =>
      rw [List.map_cons, List.nodup_cons] at distinct
      obtain ⟨fresh, distinct⟩ := distinct
      rcases List.mem_cons.mp member with rfl | member
      · cases loose : isLoose column.ty with
        | true => simp [loose]
        | false =>
            rw [List.filter_cons_of_neg (by simp [loose])]
            simp only [Bool.false_eq_true, if_false]
            apply List.lookup_eq_none_iff.mpr
            intro entry found
            obtain ⟨other, isOther, rfl⟩ := List.mem_map.mp found
            apply bne_iff_ne.mpr
            intro same
            exact fresh (same ▸ List.mem_map_of_mem (List.mem_filter.mp isOther).1)
      · have other : column.name ≠ head.name := by
          intro same
          exact fresh (same ▸ List.mem_map_of_mem member)
        rw [List.filter_cons]
        split
        · rw [List.map_cons, List.lookup_cons, beq_false_of_ne other]
          exact ih distinct member
        · exact ih distinct member

/-- A supported column can be left out. -/
theorem exists_default {parsed : ParsedType} {col : String}
    (supported : isRefusedTag (encodingTag parsed.info) = false) :
    ∃ cell, Writer.Writes (encodeValue json col parsed .null) cell := by
  have written : ∃ cell, Writer.Writes (writeDefault parsed.info col) cell := by
    have filled : ∃ cell, defaultCell parsed.info col = .ok cell := by
      unfold defaultCell
      split
      · exact ⟨_, rfl⟩
      · rename_i notDecimal
        rw [encodingTag, if_neg notDecimal] at supported
        split
        · exact ⟨_, rfl⟩
        all_goals first
          | rename_i known; rw [known] at supported; cases supported
          | split <;> exact ⟨_, rfl⟩
    obtain ⟨cell, filled⟩ := filled
    exact ⟨cell, writes_ofExcept_put_iff.mpr filled⟩
  have flagged : ∀ typed, ∃ cell,
      Writer.Writes (encodeFlagged parsed.info col .null typed) cell := by
    intro typed
    unfold encodeFlagged
    cases parsed.info.nullable with
    | true => exact ⟨_, Writer.writes_put_iff.mpr rfl⟩
    | false => exact written
  cases parsed with
  | plain info => exact flagged _
  | array info element => exact flagged _
  | map info key value => exact flagged _

/-- A column that is probed when it is loose, and left out otherwise. -/
def IsProbed (row : DynamicRow) (column : ColumnDef) : Prop :=
  row.rawFor column = none ∧ row.row.lookup column.name =
    if isLoose column.ty then some (probe column.ty) else none

theorem encodeColumn_of_loose {row : DynamicRow} {column : ColumnDef}
    (probed : IsProbed row column) (loose : isLoose column.ty = true) :
    row.encodeColumn json column = encodeValue json column.name column.ty (probe column.ty) := by
  rw [DynamicRow.encodeColumn, probed.1, probed.2, if_pos loose]
  rfl

theorem encodeColumn_of_not_loose {row : DynamicRow} {column : ColumnDef}
    (probed : IsProbed row column) (tight : isLoose column.ty = false) :
    row.encodeColumn json column = encodeValue json column.name column.ty .null := by
  rw [DynamicRow.encodeColumn, probed.1, probed.2, tight]
  rfl

/-- All probes can be written. -/
theorem exists_probed {row : DynamicRow}
    (agrees : List.Forall₂ (fun column entry => Agrees column.ty entry.colType) columns schema)
    (supported : ∀ column ∈ columns, isRefusedTag (encodingTag column.ty.info) = false)
    (probed : ∀ column ∈ columns, IsProbed row column) :
    ∃ cells, List.Forall₂ (fun column cell =>
        Writer.Writes (row.encodeColumn json column) cell) columns cells ∧
      ∀ column ∈ columns, isLoose column.ty = true →
        (probe column.ty).nodes ≤ cells.flatten.length := by
  induction agrees with
  | nil => exact ⟨[], .nil, by simp⟩
  | @cons column entry columns schema head _ ih =>
      simp only [List.mem_cons, forall_eq_or_imp] at supported probed ⊢
      obtain ⟨cells, written, held⟩ := ih supported.2 probed.2
      have first : ∃ cell, Writer.Writes (row.encodeColumn json column) cell ∧
          (isLoose column.ty = true → (probe column.ty).nodes ≤ cell.length) := by
        cases loose : isLoose column.ty with
        | true =>
            obtain ⟨cell, writes, _, held⟩ := @exists_probe_misread _ json column.name _ head loose
            rw [encodeColumn_of_loose probed.1 loose]
            exact ⟨cell, writes, fun _ => held⟩
        | false =>
            obtain ⟨cell, writes⟩ := @exists_default json column.ty column.name supported.1
            rw [encodeColumn_of_not_loose probed.1 loose]
            exact ⟨cell, writes, by simp⟩
      obtain ⟨cell, writes, bounded⟩ := first
      refine ⟨cell :: cells, .cons writes written, ?_, ?_⟩
      · intro loose
        have := bounded loose
        rw [List.flatten_cons, List.length_append]
        omega
      · intro other member loose
        have := held other member loose
        rw [List.flatten_cons, List.length_append]
        omega

/-- A value that is cut off whole ends where the rest begins. -/
theorem length_of_rbCell {columnType : ColumnType} {cell rest after : Bytes} (nonempty : cell ≠ [])
    (cut : rbCell columnType (cell ++ rest) = .ok (cell, after)) :
    rbAdvance columnType (cell ++ rest) = .ok ((), after) ∧ after.length = rest.length := by
  rw [rbCell, Reader.consumed] at cut
  split at cut
  · rename_i value left advanced
    obtain ⟨same, rfl⟩ := Prod.mk.inj (Except.ok.inj cut)
    refine ⟨advanced, ?_⟩
    have lengths := congrArg List.length same
    have positive := List.length_pos_of_ne_nil nonempty
    rw [List.length_take, List.length_append] at lengths
    omega
  · cases cut

/-- A walk that cuts a probed row as it was written has met no loose column. -/
theorem tight_of_cut {row : DynamicRow} {cells : List Bytes} {rest : Bytes}
    (agrees : List.Forall₂ (fun column entry => Agrees column.ty entry.colType) columns schema)
    (probed : ∀ column ∈ columns, IsProbed row column)
    (written : List.Forall₂ (fun column cell =>
      Writer.Writes (row.encodeColumn json column) cell) columns cells)
    (room : cells.flatten.length < addressSpace)
    (cut : rbCells (schema.map ColumnSchema.colType) cells.flatten = .ok (cells, rest)) :
    ∀ column ∈ columns, isLoose column.ty = false := by
  induction agrees generalizing cells with
  | nil => simp
  | @cons column entry columns schema head _ ih =>
      cases written with
      | @cons _ cell _ others first written =>
          rw [List.flatten_cons, List.length_append] at room
          rw [List.flatten_cons] at cut
          simp only [List.mem_cons, forall_eq_or_imp] at probed ⊢
          have tight : isLoose column.ty = false := by
            cases loose : isLoose column.ty with
            | false => rfl
            | true =>
                obtain ⟨other, writes, misreads, held⟩ :=
                  @exists_probe_misread _ json column.name _ head loose
                rw [encodeColumn_of_loose probed.1 loose] at first
                obtain rfl : other = cell := writes.1.symm.trans first.1
                obtain ⟨piece, middle, step, tail⟩ := Reader.bind_ok_iff.mp cut
                obtain ⟨pieces, last, tail, same⟩ := Reader.bind_ok_iff.mp tail
                cases same
                have nonempty : other ≠ [] := by
                  rintro rfl
                  exact absurd (Nat.le_trans (nodes_pos _) held) (by decide)
                obtain ⟨advanced, lengths⟩ := length_of_rbCell nonempty step
                exact absurd lengths (misreads _ _ advanced)
          refine ⟨tight, ih probed.2 written (by omega) ?_⟩
          rw [encodeColumn_of_not_loose probed.1 tight] at first
          have reads := reads_encodeValue head tight (by decide) first (by omega)
          have walked : rbCell entry.colType (cell ++ others.flatten) =
              .ok (cell, others.flatten) :=
            reads.consumed others.flatten
          rw [List.map_cons, rbCells, Reader.each, Reader.bind_of_ok walked] at cut
          obtain ⟨pieces, middle, tail, same⟩ := Reader.bind_ok_iff.mp cut
          cases same
          exact tail

/-- A piece list that was written is the only one. -/
theorem written_unique {row : DynamicRow} {cells pieces : List Bytes}
    (written : List.Forall₂ (fun column cell =>
      Writer.Writes (row.encodeColumn json column) cell) columns cells)
    (cut : List.Forall₂ (fun column cell =>
      Writer.Writes (row.encodeColumn json column) cell) columns pieces) : pieces = cells := by
  induction written generalizing pieces with
  | nil =>
      cases cut
      rfl
  | cons first _ ih =>
      cases cut with
      | cons other others => rw [ih others, ← first.1, ← other.1]

theorem rbCells_of_sliceRow {bytes : Bytes} {cells : List Bytes}
    (sliced : sliceRow schema bytes = .ok cells) :
    ∃ rest, rbCells (schema.map ColumnSchema.colType) bytes = .ok (cells, rest) := by
  rw [sliceRow] at sliced
  cases walked : rbCells (schema.map ColumnSchema.colType) bytes with
  | error error =>
      rw [walked] at sliced
      cases sliced
  | ok result =>
      obtain ⟨pieces, rest⟩ := result
      rw [walked] at sliced
      change (if rest.isEmpty then _ else _) = _ at sliced
      split at sliced
      · cases sliced
        exact ⟨rest, rfl⟩
      · cases sliced

/-- Columns that cut their probe row as it was written are tight. -/
theorem tight_of_boundariesAgree (accepted : Accepted columns schema)
    (distinct : (columns.map ColumnDef.name).Nodup)
    (room : ∀ bytes, Writer.Writes ((probeRow columns).encodeInto json) bytes →
      bytes.length < addressSpace)
    (agree : BoundariesAgree json columns schema) :
    ∀ column ∈ columns, isLoose column.ty = false := by
  have probed : ∀ column ∈ columns, IsProbed (probeRow columns) column :=
    fun column member => ⟨rfl, lookup_probeRow distinct member⟩
  obtain ⟨cells, written, held⟩ := exists_probed accepted.agrees accepted.supported probed
  have writes : Writer.Writes ((probeRow columns).encodeInto json) cells.flatten :=
    Writer.writes_each_iff.mpr ⟨cells, written, rfl⟩
  have encodes : Encodes json columns (probeRow columns) cells.flatten := by
    refine ⟨rfl, ?_, ?_, writes, room _ writes⟩
    · intro column member raw
      exact absurd rfl raw
    · intro entry member
      obtain ⟨column, isColumn, rfl⟩ := List.mem_map.mp member
      obtain ⟨isColumn, loose⟩ := List.mem_filter.mp isColumn
      exact Nat.lt_of_le_of_lt (held column isColumn loose) (room _ writes)
  obtain ⟨cut, sliced, each⟩ := agree [(probeRow columns, cells.flatten)] (by simpa using encodes)
  cases each with
  | @cons _ pieces _ others first rest =>
      cases rest
      cases Reader.mapM_ok_iff.mp sliced with
      | cons sliced _ =>
          obtain rfl := written_unique written first
          obtain ⟨rest, walked⟩ := rbCells_of_sliceRow sliced
          exact tight_of_cut accepted.agrees probed written (room _ writes) walked

/-- Rows are cut as they were written when no column reaches a loose decimal, and, for
columns of distinct names whose probe row fits in memory, only then. -/
theorem boundariesAgree_iff_tight (accepted : Accepted columns schema) :
    ((∀ column ∈ columns, isLoose column.ty = false) → BoundariesAgree json columns schema) ∧
      ((columns.map ColumnDef.name).Nodup →
        (∀ bytes, Writer.Writes ((probeRow columns).encodeInto json) bytes →
          bytes.length < addressSpace) →
        BoundariesAgree json columns schema →
          ∀ column ∈ columns, isLoose column.ty = false) :=
  ⟨boundariesAgree_of_tight accepted, tight_of_boundariesAgree accepted⟩

/-- Columns built from type strings without blanks around them. -/
theorem accepted_new {named : List (String × String)}
    (plain : ∀ header ∈ named, String.ofList (ParsedType.parse header.2).info.raw = header.2 ∧
      isRefusedTag (encodingTag (ParsedType.parse header.2).info) = false)
    (native : ColumnSchema.fromHeaders named = .ok schema)
    (once : ∀ column ∈ schema, nullableOnce column.colType = true) :
    Accepted (named.map fun header => .new header.1 header.2) schema where
  parsed := by
    intro column member
    obtain ⟨header, _, rfl⟩ := List.mem_map.mp member
    exact ⟨header.2, ColumnDef.new_ty ..⟩
  supported := by
    intro column member
    obtain ⟨header, isHeader, rfl⟩ := List.mem_map.mp member
    rw [ColumnDef.new_ty]
    exact (plain header isHeader).2
  native := by
    have same : headers (named.map fun header => .new header.1 header.2) = named := by
      rw [headers, List.map_map]
      apply (List.map_congr_left _).trans (List.map_id named)
      intro header member
      rw [Function.comp_apply, ColumnDef.new_name, ColumnDef.new_ty, (plain header member).1, id]
    rw [same]
    exact native
  once := once

/-- Columns of numbers and of lists of decimals. -/
def pairHeaders (decimal : String) : List (String × String) :=
  [("n", "UInt8"), ("d", decimal)]

def pairColumns (decimal : String) : List ColumnDef :=
  (pairHeaders decimal).map fun header => .new header.1 header.2

def pairSchema (decimal : String) : List ColumnSchema :=
  [⟨"n", "UInt8", .uInt8⟩, ⟨"d", decimal, .array (.decimal64 10 2)⟩]

theorem nullableOnce_pairSchema (decimal : String) :
    ∀ column ∈ pairSchema decimal, nullableOnce column.colType = true := by
  simp [pairSchema, nullableOnce]

/-- Texts for rows without floats and without lists in text columns. -/
def plainTexts : JsonText where
  float := fun _ => "0.0"
  compound := fun _ => "[]"

theorem boundariesAgree_iff_tight_pair :
    BoundariesAgree plainTexts (pairColumns "Array(Decimal(10, 2))")
      (pairSchema "Array(Decimal(10, 2))") := by
  apply (boundariesAgree_iff_tight (accepted_new (by decide +kernel) rfl
    (nullableOnce_pairSchema _))).1
  decide +kernel

/-- A comma after the scale widens the decimals of the encoder only. -/
theorem boundariesAgree_fails_comma :
    ¬ BoundariesAgree plainTexts (pairColumns "Array(Decimal(10, 2,))")
      (pairSchema "Array(Decimal(10, 2,))") := by
  intro agree
  have accepted : Accepted (pairColumns "Array(Decimal(10, 2,))")
      (pairSchema "Array(Decimal(10, 2,))") :=
    accepted_new (by decide +kernel) rfl (nullableOnce_pairSchema _)
  have room : ∀ bytes, Writer.Writes ((probeRow (pairColumns "Array(Decimal(10, 2,))")).encodeInto
      plainTexts) bytes → bytes.length < addressSpace := by
    intro bytes writes
    rw [← writes.1]
    decide +kernel
  have tight := tight_of_boundariesAgree accepted (by decide +kernel) room agree
  have loose : ¬ ∀ column ∈ pairColumns "Array(Decimal(10, 2,))", isLoose column.ty = false := by
    decide +kernel
  exact loose tight

end DfeClickhouse.Dynamic
