import VitrialSync.Beam.Runtime
import VitrialSync.Program.Wire
import VitrialSync.Python.Codec

set_option relaxedAutoImplicit false
set_option autoImplicit false

/-!
# Frames of the PostgreSQL protocol

What `VitrialSync.Db.Pgconn` sends for a query of the extended protocol, and how it reads the
columns and the rows of the response. A frame is a type, a length that counts itself and the
payload, and the payload. Against the code stand a server that reads frames of the frontend as the
protocol has them, and one that writes columns and rows.

## Main definitions

* `VitrialSync.Beam.Pgconn.sendExtendedQuery` — the bytes that `send_extended_query/3` sends.
* `VitrialSync.Beam.Pgconn.decodeRowDescription`, `VitrialSync.Beam.Pgconn.decodeDataRow` —
  `decode_row_description/1` and `decode_data_row/1`.
* `VitrialSync.Beam.Pgconn.frontendMessage` — a message of the frontend, as the server reads it.
* `VitrialSync.Beam.Pgconn.rowDescription`, `VitrialSync.Beam.Pgconn.dataRow` — columns and rows, as
  the server writes them.

## Main results

* `VitrialSync.Beam.Pgconn.frame_codec` — the server reads what was meant, and columns and rows are
  read as the server wrote them.
-/

namespace VitrialSync.Beam.Pgconn

open Python Program
open Program.Wire (Reader Reads andThen result bigEndian length_bigEndian number terminated octets
  repeated readAll reads_number reads_terminated reads_octets reads_result readAll_frames)

/-! ### Sending a query -/

/-- A parameter as `Codec.encode_param/1` gives it. -/
inductive Param where
  | null
  | binary (value : Bytes)
  | int (value : ℤ)
  | float (value : Binary64)
  | bool (value : Bool)

/-- `<<n::16>>`. -/
def int16 (n : ℤ) : Bytes := bigEndian 2 (n % 2 ^ 16).toNat

/-- `<<n::32>>`. -/
def int32 (n : ℤ) : Bytes := bigEndian 4 (n % 2 ^ 32).toNat

/-- A text of ASCII as bytes. -/
def asciiText (text : Str) : Bytes := text.map fun c => byte c.val

/-- `encode_param/1` of a binary. -/
def encodeBinary (value : Bytes) : Bytes := int32 value.length ++ value

/-- `encode_param/1`; `Float.to_string/1` is the text of the runtime. -/
def encodeParam (runtime : Runtime) : Param → Bytes
  | .null => int32 (-1)
  | .binary value => encodeBinary value
  | .int value => encodeBinary (asciiText (Str.ofInt value))
  | .float value => encodeBinary (asciiText (runtime.short value))
  | .bool true => encodeBinary (Bytes.ofString "t")
  | .bool false => encodeBinary (Bytes.ofString "f")

/-- A frame: the type, the length of the rest and the payload. -/
def frame (type : Byte) (body : Bytes) : Bytes := [type] ++ int32 (body.length + 4) ++ body

/-- `parse_message/1`. -/
def parseMessage (sql : Bytes) : Bytes :=
  let body := [0] ++ (sql ++ [0]) ++ int16 0
  frame 0x50 body

/-- `bind_message/1`. -/
def bindMessage (runtime : Runtime) (params : List Param) : Bytes :=
  let paramBytes := params.flatMap (encodeParam runtime)
  let body := [0] ++ [0] ++ int16 0 ++ int16 params.length ++ paramBytes ++ int16 0
  frame 0x42 body

/-- `describe_message/0`. -/
def describeMessage : Bytes := [0x44] ++ int32 6 ++ [0x50, 0]

/-- `execute_message/0`. -/
def executeMessage : Bytes :=
  let body := [0] ++ int32 0
  frame 0x45 body

/-- The bytes that `send_extended_query/3` sends. -/
def sendExtendedQuery (runtime : Runtime) (sql : Bytes) (params : List Param) : Bytes :=
  parseMessage sql ++ bindMessage runtime params ++ describeMessage ++ executeMessage ++
    ([0x53] ++ int32 4)

/-! ### Reading columns and rows -/

/-- The map of `decode_field/1`. -/
structure Field where
  name : Bytes
  (tableOid column typeOid size modifier format : ℕ)
  deriving DecidableEq

/-- `decode_field/1`, with `none` for `:error`: the name up to the first zero, then 18 bytes. -/
def decodeField (rest : Bytes) : Option (Field × Bytes) := do
  let (name, tail) ← terminated rest
  let (tableOid, tail) ← number 4 tail
  let (column, tail) ← number 2 tail
  let (typeOid, tail) ← number 4 tail
  let (size, tail) ← number 2 tail
  let (modifier, tail) ← number 4 tail
  let (format, rest2) ← number 2 tail
  return (⟨name, tableOid, column, typeOid, size, modifier, format⟩, rest2)

/-- `decode_fields/3`. -/
def decodeFields : ℕ → Bytes → List Field → List Field
  | 0, _, acc => acc.reverse
  | n + 1, rest, acc =>
    match decodeField rest with
    | some (field, rest2) => decodeFields n rest2 (field :: acc)
    | none => acc.reverse

/-- `decode_row_description/1`, with `none` where the clause does not match. -/
def decodeRowDescription (payload : Bytes) : Option (List Field) :=
  match number 2 payload with
  | some (count, rest) => some (decodeFields count rest [])
  | none => none

/-- `decode_row_cells/3`, with `none` where no pattern matches. -/
def decodeRowCells : ℕ → Bytes → List (Option Bytes) → Option (List (Option Bytes))
  | 0, _, acc => some acc.reverse
  | n + 1, bytes, acc =>
    match number 4 bytes with
    | none => none
    | some (size, rest) =>
      -- `<<-1::signed-32>>`
      if size = 2 ^ 32 - 1 then decodeRowCells n rest (none :: acc)
      else
        match octets size rest with
        | some (value, rest2) => decodeRowCells n rest2 (some value :: acc)
        | none => none

/-- `decode_data_row/1`. -/
def decodeDataRow (payload : Bytes) : Option (List (Option Bytes)) :=
  match number 2 payload with
  | some (count, rest) => decodeRowCells count rest []
  | none => none

/-! ### The server -/

/-- A message of the frontend. -/
inductive FrontendMessage where
  | parse (statement query : Bytes) (types : List ℕ)
  | bind (portal statement : Bytes) (formats : List ℕ) (values : List (Option Bytes))
      (resultFormats : List ℕ)
  | describe (kind : ℕ) (name : Bytes)
  | execute (portal : Bytes) (maxRows : ℕ)
  | sync
  deriving DecidableEq

/-- A count of two bytes, and so many items. -/
def counted {α : Type} (read : Reader α) : Reader (List α) := andThen (number 2) (repeated read)

/-- The value of a parameter: its length, minus one for NULL, and its text. -/
def parameterValue : Reader (Option Bytes) := andThen (number 4) fun length =>
  if length = 2 ^ 32 - 1 then result none
  else if length < 2 ^ 31 then andThen (octets length) fun value => result (some value)
  else fun _ => none

/-- The payload of Parse. -/
def parseBody : Reader FrontendMessage :=
  andThen terminated fun statement => andThen terminated fun query =>
    andThen (counted (number 4)) fun types => result (.parse statement query types)

/-- The payload of Bind. -/
def bindBody : Reader FrontendMessage :=
  andThen terminated fun portal => andThen terminated fun statement =>
    andThen (counted (number 2)) fun formats => andThen (counted parameterValue) fun values =>
      andThen (counted (number 2)) fun resultFormats =>
        result (.bind portal statement formats values resultFormats)

/-- The payload of Describe. -/
def describeBody : Reader FrontendMessage :=
  andThen (number 1) fun kind => andThen terminated fun name => result (.describe kind name)

/-- The payload of Execute. -/
def executeBody : Reader FrontendMessage :=
  andThen terminated fun portal => andThen (number 4) fun maxRows =>
    result (.execute portal maxRows)

/-- The payload of a message of a type. -/
def readBody (type : ℕ) : Reader FrontendMessage :=
  if type = 0x50 then parseBody
  else if type = 0x42 then bindBody
  else if type = 0x44 then describeBody
  else if type = 0x45 then executeBody
  else if type = 0x53 then result .sync
  else fun _ => none

/-- A message: its type, the length of the rest, and a payload with nothing left over. -/
def frontendMessage : Reader FrontendMessage := andThen (number 1) fun type =>
  andThen (number 4) fun length =>
    if 4 ≤ length ∧ length < 2 ^ 31 then
      andThen (octets (length - 4)) fun payload =>
        match readBody type payload with
        | some (message, []) => result message
        | _ => fun _ => none
    else fun _ => none

/-- The text of a parameter, `none` for NULL. -/
def Param.text (runtime : Runtime) : Param → Option Bytes
  | .null => none
  | .binary value => some value
  | .int value => some (asciiText (Str.ofInt value))
  | .float value => some (asciiText (runtime.short value))
  | .bool true => some (Bytes.ofString "t")
  | .bool false => some (Bytes.ofString "f")

/-- The description of a column: a name without a zero, and numbers that fit their width. -/
structure Column where
  name : Bytes
  tableOid : ℕ
  column : ℤ
  typeOid : ℕ
  size : ℤ
  modifier : ℤ
  format : ℕ
  name_ne_zero : 0 ∉ name
  typeOid_lt : typeOid < 2 ^ 32
  format_lt : format < 2 ^ 16

/-- The bytes of a column. -/
def Column.encode (c : Column) : Bytes :=
  c.name ++ [0] ++ int32 c.tableOid ++ int16 c.column ++ int32 c.typeOid ++ int16 c.size ++
    int32 c.modifier ++ int16 c.format

/-- The payload of a RowDescription. -/
def rowDescription (columns : List Column) : Bytes :=
  int16 columns.length ++ columns.flatMap Column.encode

/-- The bytes of a cell: NULL, or the length and the value. -/
def encodeCell : Option Bytes → Bytes
  | none => int32 (-1)
  | some value => int32 value.length ++ value

/-- The payload of a DataRow. -/
def dataRow (cells : List (Option Bytes)) : Bytes :=
  int16 cells.length ++ cells.flatMap encodeCell

/-! ### Numbers of a width -/

/-- A number of two bytes is read, without its sign. -/
lemma reads_int16 (n : ℤ) : Reads (number 2) (int16 n) (n % 2 ^ 16).toNat :=
  reads_number (by omega)

/-- A number of four bytes is read, without its sign. -/
lemma reads_int32 (n : ℤ) : Reads (number 4) (int32 n) (n % 2 ^ 32).toNat :=
  reads_number (by omega)

/-- A small number of two bytes. -/
lemma reads_int16_nat {n : ℕ} (h : n < 2 ^ 16) : Reads (number 2) (int16 n) n := by
  have hread := reads_int16 n
  have hn : ((n : ℤ) % 2 ^ 16).toNat = n := by omega
  rwa [hn] at hread

/-- A small number of four bytes. -/
lemma reads_int32_nat {n : ℕ} (h : n < 2 ^ 32) : Reads (number 4) (int32 n) n := by
  have hread := reads_int32 n
  have hn : ((n : ℤ) % 2 ^ 32).toNat = n := by omega
  rwa [hn] at hread

/-- A byte is a number of one byte. -/
lemma reads_octet (b : Byte) : Reads (number 1) [b] b.val := by
  intro rest
  rw [number, if_pos (by simp)]
  simp [Wire.ofBytes]

/-- An empty name. -/
lemma reads_unnamed : Reads terminated [0] [] := reads_terminated List.not_mem_nil

/-- No items. -/
lemma reads_none {α : Type} (read : Reader α) : Reads (counted read) (int16 0) [] :=
  (reads_int16 0).last (reads_result [])

/-! ### The server reads what is sent -/

/-- A value is read with its length.  -/
lemma reads_value {value : Bytes} (h : value.length < 2 ^ 31) :
    Reads parameterValue (encodeBinary value) (some value) := by
  refine (reads_int32_nat (by omega)).bind ?_
  rw [if_neg (by omega), if_pos h]
  exact (reads_octets value).last (reads_result _)

/-- A parameter is read as its text. -/
lemma reads_param (runtime : Runtime) {param : Param}
    (h : (encodeParam runtime param).length < 2 ^ 31) :
    Reads parameterValue (encodeParam runtime param) (param.text runtime) := by
  have hvalue : ∀ value : Bytes, (encodeBinary value).length < 2 ^ 31 →
      Reads parameterValue (encodeBinary value) (some value) := by
    intro value hlength
    rw [encodeBinary, List.length_append] at hlength
    exact reads_value (by omega)
  cases param with
  | null =>
    refine (reads_int32 (-1)).last ?_
    rw [if_pos (by decide)]
    exact reads_result none
  | binary value => exact hvalue _ h
  | int value => exact hvalue _ h
  | float value => exact hvalue _ h
  | bool value => cases value <;> exact hvalue _ h

/-- The parameters are read one by one. -/
lemma reads_params (runtime : Runtime) {params : List Param} (hcount : params.length < 2 ^ 16)
    (h : (params.flatMap (encodeParam runtime)).length < 2 ^ 31) :
    Reads (counted parameterValue)
      (int16 params.length ++ params.flatMap (encodeParam runtime))
      (params.map (Param.text runtime)) := by
  refine (reads_int16_nat hcount).bind ?_
  induction params with
  | nil => exact reads_result []
  | cons param params ih =>
    rw [List.flatMap_cons, List.length_append] at h
    rw [List.length_cons] at hcount
    rw [List.length_cons, List.flatMap_cons, List.map_cons]
    exact (reads_param runtime (by omega)).bind
      ((ih (by omega) (by omega)).last (reads_result _))

/-- A frame is read when its payload is. -/
lemma reads_frame (type : Byte) {body : Bytes} {message : FrontendMessage}
    (h : Reads (readBody type.val) body message) (hlength : body.length + 4 < 2 ^ 31) :
    Reads frontendMessage (frame type body) message := by
  have hint : int32 (body.length + 4) = int32 ((body.length + 4 : ℕ) : ℤ) := by
    rw [Nat.cast_add, Nat.cast_ofNat]
  rw [frame, hint, List.append_assoc]
  refine (reads_octet type).bind ((reads_int32_nat (by omega)).bind ?_)
  rw [if_pos ⟨by omega, hlength⟩, Nat.add_sub_cancel]
  refine (reads_octets body).last ?_
  rw [h.all]
  exact reads_result message

/-- A frame is no empty text. -/
lemma frame_ne_nil (type : Byte) (body : Bytes) : frame type body ≠ [] := by
  simp [frame]

/-- The statement is read. -/
lemma reads_parseMessage {sql : Bytes} (hsql : 0 ∉ sql)
    (h : (parseMessage sql).length < 2 ^ 31) :
    Reads frontendMessage (parseMessage sql) (.parse [] sql []) := by
  refine reads_frame _ ?_ ?_
  · change Reads parseBody _ _
    rw [List.append_assoc]
    refine Reads.bind reads_unnamed ?_
    refine Reads.bind (reads_terminated hsql) ?_
    exact Reads.last (reads_none (number 4)) (reads_result _)
  · rw [parseMessage, frame] at h
    simp only [List.length_append, List.length_singleton, length_bigEndian, int32] at h ⊢
    omega

/-- The parameters are read. -/
lemma reads_bindMessage (runtime : Runtime) {params : List Param} (hcount : params.length < 2 ^ 16)
    (h : (bindMessage runtime params).length < 2 ^ 31) :
    Reads frontendMessage (bindMessage runtime params)
      (.bind [] [] [] (params.map (Param.text runtime)) []) := by
  rw [bindMessage, frame] at h
  simp only [List.length_append, List.length_singleton, length_bigEndian, int32, int16] at h
  refine reads_frame _ ?_ ?_
  · change Reads bindBody _ _
    simp only [List.append_assoc]
    refine Reads.bind reads_unnamed ?_
    refine Reads.bind reads_unnamed ?_
    refine Reads.bind (reads_none (number 2)) ?_
    rw [← List.append_assoc]
    refine Reads.bind (reads_params runtime hcount (by omega)) ?_
    exact Reads.last (reads_none (number 2)) (reads_result _)
  · simp only [List.length_append, List.length_singleton, length_bigEndian, int16]
    omega

/-- The other messages are read. -/
lemma reads_rest : Reads frontendMessage describeMessage (.describe 0x50 []) ∧
    Reads frontendMessage executeMessage (.execute [] 0) ∧
    Reads frontendMessage ([0x53] ++ int32 4) .sync := by
  have hdescribe : Reads describeBody ([0x50] ++ [0]) (.describe 0x50 []) := by
    refine Reads.bind (reads_octet 0x50) ?_
    exact Reads.last reads_unnamed (reads_result _)
  have hexecute : Reads executeBody ([0] ++ int32 0) (.execute [] 0) := by
    refine Reads.bind reads_unnamed ?_
    exact Reads.last (reads_int32 0) (reads_result _)
  have hsync : Reads (readBody 0x53) [] .sync := reads_result _
  have hdescribe' : describeMessage = frame 0x44 ([0x50] ++ [0]) := by
    rw [describeMessage, frame]
    norm_num
  have hsync' : [0x53] ++ int32 4 = frame 0x53 [] := by
    rw [frame]
    norm_num
  rw [hdescribe', hsync']
  exact ⟨reads_frame 0x44 hdescribe (by decide), reads_frame 0x45 hexecute (by decide),
    reads_frame 0x53 hsync (by decide)⟩

/-! ### Columns and rows are read -/

/-- The field that is read for a column. -/
def Column.field (c : Column) : Field :=
  ⟨c.name, ((c.tableOid : ℤ) % 2 ^ 32).toNat, (c.column % 2 ^ 16).toNat, c.typeOid,
    (c.size % 2 ^ 16).toNat, (c.modifier % 2 ^ 32).toNat, c.format⟩

/-- A column is read. -/
lemma decodeField_encode (c : Column) (rest : Bytes) :
    decodeField (c.encode ++ rest) = some (c.field, rest) := by
  have hname := reads_terminated c.name_ne_zero
  have htype : ((c.typeOid : ℤ) % 2 ^ 32).toNat = c.typeOid := by
    have := c.typeOid_lt
    omega
  have hformat : ((c.format : ℤ) % 2 ^ 16).toNat = c.format := by
    have := c.format_lt
    omega
  rw [Column.encode]
  simp only [List.append_assoc]
  rw [← List.append_assoc c.name [0]]
  simp only [decodeField, hname _, reads_int32 _ _, reads_int16 _ _, htype, hformat,
    Option.bind_eq_bind, Option.bind_some, Option.pure_def]
  rfl

/-- The columns are read one by one. -/
lemma decodeFields_encode (columns : List Column) (acc : List Field) :
    decodeFields columns.length (columns.flatMap Column.encode) acc =
      acc.reverse ++ columns.map Column.field := by
  induction columns generalizing acc with
  | nil => simp [decodeFields]
  | cons c columns ih =>
    rw [List.length_cons, List.flatMap_cons, decodeFields, decodeField_encode]
    dsimp only
    rw [ih]
    simp

/-- The cells are read one by one. -/
lemma decodeRowCells_encode {cells : List (Option Bytes)}
    (h : ∀ value, some value ∈ cells → value.length < 2 ^ 31) (acc : List (Option Bytes)) :
    decodeRowCells cells.length (cells.flatMap encodeCell) acc = some (acc.reverse ++ cells) := by
  induction cells generalizing acc with
  | nil => simp [decodeRowCells]
  | cons cell cells ih =>
    have hrest : ∀ value, some value ∈ cells → value.length < 2 ^ 31 :=
      fun value hvalue => h value (List.mem_cons_of_mem _ hvalue)
    rw [List.length_cons, List.flatMap_cons, decodeRowCells]
    cases cell with
    | none =>
      rw [encodeCell, reads_int32]
      dsimp only
      rw [if_pos (by decide), ih hrest]
      simp
    | some value =>
      have hlength := h value List.mem_cons_self
      rw [encodeCell, List.append_assoc, reads_int32_nat (by omega)]
      dsimp only
      rw [if_neg (by omega), reads_octets]
      dsimp only
      rw [ih hrest]
      simp

/-! ### The codec -/

/-- **The frames of the protocol.** A server that reads the bytes of a query as the protocol has
them finds the statement, as many parameters, each of them NULL or its text, and the description,
the execution and the end of the group, with nothing left over. The columns and the cells that are
read are those that the server wrote, in order.

**Proof sketch.** Every part is read as it was written (`Reads`), and parts that are written one
after the other are read one after the other. -/
theorem frame_codec (runtime : Runtime) {sql : Bytes} {params : List Param} {columns : List Column}
    {cells : List (Option Bytes)} (hsql : 0 ∉ sql) (hparams : params.length ≤ 65535)
    (hsize : (sendExtendedQuery runtime sql params).length < 2 ^ 31)
    (hcolumns : columns.length ≤ 65535) (hcells : cells.length ≤ 65535)
    (hvalues : ∀ value, some value ∈ cells → value.length < 2 ^ 31) :
    readAll frontendMessage 5 (sendExtendedQuery runtime sql params) =
        some [.parse [] sql [], .bind [] [] [] (params.map (Param.text runtime)) [],
          .describe 0x50 [], .execute [] 0, .sync] ∧
      (∃ fields, decodeRowDescription (rowDescription columns) = some fields ∧
        fields.map (fun f => (f.name, f.typeOid, f.format)) =
          columns.map fun c => (c.name, c.typeOid, c.format)) ∧
      decodeDataRow (dataRow cells) = some cells := by
  refine ⟨?_, ⟨columns.map Column.field, ?_, ?_⟩, ?_⟩
  · obtain ⟨hdescribe, hexecute, hsync⟩ := reads_rest
    have hlength := hsize
    simp only [sendExtendedQuery, List.length_append] at hlength
    have hframes := readAll_frames (n := 5) [(parseMessage sql, .parse [] sql []),
      (bindMessage runtime params, .bind [] [] [] (params.map (Param.text runtime)) []),
      (describeMessage, .describe 0x50 []), (executeMessage, .execute [] 0),
      ([0x53] ++ int32 4, .sync)] (?_ : ∀ frame ∈ _, Reads frontendMessage _ _ ∧ _) (by simp)
    · simpa only [sendExtendedQuery, List.flatMap_cons, List.flatMap_nil, List.append_nil,
        List.append_assoc, List.map_cons, List.map_nil] using hframes
    · simp only [List.forall_mem_cons]
      refine ⟨⟨reads_parseMessage hsql (by omega), frame_ne_nil _ _⟩,
        ⟨reads_bindMessage runtime (by omega) (by omega), frame_ne_nil _ _⟩,
        ⟨hdescribe, by simp [describeMessage]⟩, ⟨hexecute, frame_ne_nil _ _⟩,
        ⟨hsync, by simp⟩, fun _ h => absurd h List.not_mem_nil⟩
  · rw [decodeRowDescription, rowDescription, reads_int16_nat (by omega)]
    exact congrArg some (decodeFields_encode columns [])
  · rw [List.map_map]
    rfl
  · rw [decodeDataRow, dataRow, reads_int16_nat (by omega)]
    exact decodeRowCells_encode hvalues []

namespace Sample

/-- A runtime. -/
def runtime : Runtime := ⟨Runtime.shortText, fun _ _ _ => true⟩

/-- A statement with three parameters. -/
def sql : Bytes := Bytes.ofString "SELECT $1, $2, $3"

/-- Its parameters: NULL, an empty text and a boolean. -/
def params : List Param := [.null, .binary [], .bool true]

/-- A column of an integer. -/
def column : Column :=
  ⟨Bytes.ofString "id", 16384, 1, 23, 4, -1, 0, by decide, by decide, by decide⟩

/-- A row with NULL, an empty cell and a digit. -/
def cells : List (Option Bytes) := [none, some [], some (Bytes.ofString "7")]

end Sample

/-- A query with three parameters, and a row of three cells. -/
theorem frame_codec_sample :
    readAll frontendMessage 5 (sendExtendedQuery Sample.runtime Sample.sql Sample.params) =
        some [.parse [] Sample.sql [], .bind [] [] [] [none, some [], some (Bytes.ofString "t")] [],
          .describe 0x50 [], .execute [] 0, .sync] ∧
      (∃ fields, decodeRowDescription (rowDescription [Sample.column]) = some fields ∧
        fields.map (fun f => (f.name, f.typeOid, f.format)) = [(Bytes.ofString "id", 23, 0)]) ∧
      decodeDataRow (dataRow Sample.cells) = some Sample.cells :=
  frame_codec Sample.runtime (by decide) (by decide) (by decide +kernel) (by decide) (by decide)
    fun value h => by
      have hall : ∀ cell ∈ Sample.cells, (cell.getD []).length < 2 ^ 31 := by decide
      exact hall _ h

end VitrialSync.Beam.Pgconn
