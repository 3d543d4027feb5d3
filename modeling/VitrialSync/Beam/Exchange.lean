import VitrialSync.Beam.Frames

set_option relaxedAutoImplicit false
set_option autoImplicit false

/-!
# Exchanges on one connection

How `VitrialSync.Db.Pgconn` reads the answer to a query: `read_message/2`, `read_query_response/2`,
`collect_rows/5` and `drain_to_ready/2`, on the bytes that have arrived, in whatever pieces. A read
that finds too few bytes times out. The owner of the socket serves one query after another; what an
exchange leaves unread is there for the next one.

A failure after the columns of a result returns without its ReadyForQuery, and so does a command
whose completion is followed by a notice. What is left behind is skipped by the next exchange, so
that, as long as no read times out, every reply is the one of its own query.

## Main definitions

* `VitrialSync.Beam.Pgconn.readQueryResponse` — `read_query_response/2`.
* `VitrialSync.Beam.Pgconn.serveQueries` — `owner_receive/2` over the queries of a connection.
* `VitrialSync.Beam.Pgconn.ServerReply`, `VitrialSync.Beam.Pgconn.Sends` — the answers of a server,
  with messages that may come at any time.
* `VitrialSync.Beam.Pgconn.Answers` — the reply that belongs to an answer.

## Main results

* `VitrialSync.Beam.Pgconn.readQueryResponse_sends` — one exchange.
* `VitrialSync.Beam.Pgconn.serveQueries_answers` — replies match their queries.
-/

namespace VitrialSync.Beam.Pgconn

open Python Program
open Program.Wire (number octets terminated reads_number reads_octets reads_terminated)

/-! ### Errors of the server -/

/-- `pg_error`. -/
structure PgError where
  (severity code message detail hint position : Option Bytes)

/-- `split_error_fields/2` before `Map.new/1`, with `none` where it raises. -/
def splitErrorFields : ℕ → Bytes → Option (List (Byte × Bytes))
  | _, [] => none
  | _, [0] => some []
  | 0, _ => none
  | n + 1, field :: rest =>
    match terminated rest with
    | none => none
    | some (value, rest2) => (splitErrorFields n rest2).map fun fields => (field, value) :: fields

/-- The value of a field; of a repeated field the last one is kept. -/
def fieldValue (fields : List (Byte × Bytes)) (field : Byte) : Option Bytes :=
  (fields.reverse.find? fun f => f.1 == field).map Prod.snd

/-- The fields that `@field_codes` names. -/
def pgError (fields : List (Byte × Bytes)) : PgError where
  severity := fieldValue fields 0x53
  code := fieldValue fields 0x43
  message := fieldValue fields 0x4d
  detail := fieldValue fields 0x44
  hint := fieldValue fields 0x48
  position := fieldValue fields 0x50

/-- `decode_error/1`. -/
def decodeError (payload : Bytes) : Option PgError :=
  (splitErrorFields payload.length payload).map pgError

/-! ### Messages -/

/-- A message of the server: its type and its payload. -/
structure Message where
  type : Byte
  payload : Bytes

/-- The bytes of a message. -/
def Message.bytes (m : Message) : Bytes := frame m.type m.payload

/-- The errors of an exchange. -/
inductive ExchangeError where
  | pgError (error : PgError)
  | unexpectedRowDescription
  | timeout
  /-- What no clause matches: the owner dies. -/
  | raised

/-- `read_message/2`, and what it leaves in the socket. -/
def readMessage (socket : Bytes) : Except ExchangeError Message × Bytes :=
  match socket with
  | [] => (.error .timeout, [])
  | type :: socket =>
    match number 4 socket with
    | none => (.error .timeout, socket)
    | some (length, socket) =>
      -- `:gen_tcp.recv/3` has no clause for a negative length
      if length < 4 then (.error .raised, socket)
      else
        match octets (length - 4) socket with
        | none => (.error .timeout, socket)
        | some (payload, socket) => (.ok ⟨type, payload⟩, socket)

/-- A message that is read leaves less. -/
lemma readMessage_length {socket rest : Bytes} {m : Message}
    (h : readMessage socket = (.ok m, rest)) : rest.length < socket.length := by
  unfold readMessage at h
  split at h
  next => cases h
  next type tail =>
    split at h
    next => cases h
    next length tail' hnumber =>
      split at h
      next => cases h
      next =>
        split at h
        next => cases h
        next payload rest' hoctets =>
          obtain ⟨-, rfl⟩ := Prod.mk.inj h
          simp only [number, octets] at hnumber hoctets
          split_ifs at hnumber hoctets
          obtain ⟨-, rfl⟩ := Prod.mk.inj (Option.some.inj hnumber)
          obtain ⟨-, rfl⟩ := Prod.mk.inj (Option.some.inj hoctets)
          simp only [List.length_drop, List.length_cons]
          omega

/-! ### Replies -/

/-- The maps of `read_query_response/2` and `collect_rows/5`. -/
inductive Response where
  | rows (rows : List (List (Option Bytes))) (rowDescription : List Field)
      (commandComplete status : Bytes)
  /-- ReadyForQuery without a completion. -/
  | status (status : Bytes)
  | command (commandComplete : Bytes) (status : Option Bytes)
  | data (status : Bytes)
  | closed

/-- What a query is answered. -/
abbrev Reply := Except ExchangeError Response

/-- `{:error, decode_error(payload)}`. -/
def errorReply (payload : Bytes) : Reply :=
  match decodeError payload with
  | some error => .error (.pgError error)
  | none => .error .raised

/-- `drain_to_ready/2`, where it raises or returns, and what it leaves in the socket. -/
def drainToReady (socket : Bytes) : Except ExchangeError Unit × Bytes :=
  match _h : readMessage socket with
  | (.error .raised, rest) => (.error .raised, rest)
  | (.error _, rest) => (.ok (), rest)
  | (.ok m, rest) => if m.type = 0x5a then (.ok (), rest) else drainToReady rest
termination_by socket.length
decreasing_by exact readMessage_length _h

/-- `put_status/2`. -/
def putStatus (description : List Field) (result : Option (List (List (Option Bytes)) × Bytes))
    (status : Bytes) : Response :=
  match result with
  | some (rows, commandComplete) => .rows rows description commandComplete status
  | none => .status status

/-- `collect_rows/5`. -/
def collectRows (description : List Field) (acc : List (List (Option Bytes)))
    (result : Option (List (List (Option Bytes)) × Bytes)) (socket : Bytes) : Reply × Bytes :=
  match _h : readMessage socket with
  | (.error reason, rest) => (.error reason, rest)
  | (.ok m, rest) =>
    if m.type = 0x44 then
      match decodeDataRow m.payload with
      | some row => collectRows description (row :: acc) result rest
      | none => (.error .raised, rest)
    else if m.type = 0x43 then collectRows description acc (some (acc.reverse, m.payload)) rest
    -- the ReadyForQuery that follows the error stays in the socket
    else if m.type = 0x45 then (errorReply m.payload, rest)
    else if m.type = 0x5a then (.ok (putStatus description result m.payload), rest)
    else if m.type = 0x54 then (.error .unexpectedRowDescription, rest)
    else collectRows description acc result rest
termination_by socket.length
decreasing_by all_goals exact readMessage_length _h

/-- The clause of `read_query_response/2` for a completion: one more message is read. -/
def completeCommand (commandComplete socket : Bytes) : Reply × Bytes :=
  match readMessage socket with
  | (.error reason, rest) => (.error reason, rest)
  | (.ok m, rest) =>
    if m.type = 0x5a then (.ok (.command commandComplete (some m.payload)), rest)
    else (.ok (.command commandComplete none), rest)

/-- The clause of `read_query_response/2` for an error. -/
def failQuery (payload socket : Bytes) : Reply × Bytes :=
  match drainToReady socket with
  | (.error reason, rest) => (.error reason, rest)
  | (.ok (), rest) => (errorReply payload, rest)

/-- `read_query_response/2`. -/
def readQueryResponse (socket : Bytes) : Reply × Bytes :=
  match _h : readMessage socket with
  | (.error reason, rest) => (.error reason, rest)
  | (.ok m, rest) =>
    if m.type = 0x54 then
      match decodeRowDescription m.payload with
      | some description => collectRows description [] none rest
      | none => (.error .raised, rest)
    else if m.type = 0x44 then (.ok (.data m.payload), rest)
    else if m.type = 0x43 then completeCommand m.payload rest
    else if m.type = 0x45 then failQuery m.payload rest
    else if m.type = 0x73 then (.ok .closed, rest)
    else readQueryResponse rest
termination_by socket.length
decreasing_by exact readMessage_length _h

/-- One turn of `owner_receive/2` for `query/3`, on what has been left in the socket and the bytes
that the server answers; without an owner nothing comes. -/
def ownerReceive : Option Bytes → Bytes → Reply × Option Bytes
  | none, _ => (.error .timeout, none)
  | some socket, answer =>
    match readQueryResponse (socket ++ answer) with
    | (.error .raised, _) => (.error .timeout, none)
    | (reply, rest) => (reply, some rest)

/-- The replies to the queries of a connection, one after another; the answer of the server to each
of them has arrived when it is read. -/
def serveQueries : Option Bytes → List Bytes → List Reply
  | _, [] => []
  | owner, answer :: answers =>
    (ownerReceive owner answer).1 :: serveQueries (ownerReceive owner answer).2 answers

/-! ### The server -/

/-- The payload of an ErrorResponse. -/
def errorResponse (fields : List (Byte × Bytes)) : Bytes :=
  fields.flatMap (fun f => f.1 :: (f.2 ++ [0])) ++ [0]

/-- How far a query had come when it failed. -/
inductive Progress where
  | parse
  | bind
  | describe
  /-- It gives no rows. -/
  | execute
  | rows (columns : List Column) (rows : List (List (Option Bytes)))

/-- The messages for the columns and the rows of a result. -/
def resultMessages (columns : List Column) (rows : List (List (Option Bytes))) : List Message :=
  ⟨0x54, rowDescription columns⟩ :: rows.map fun row => ⟨0x44, dataRow row⟩

/-- The messages before the failure. -/
def Progress.messages : Progress → List Message
  | .parse => []
  | .bind => [⟨0x31, []⟩]
  | .describe => [⟨0x31, []⟩, ⟨0x32, []⟩]
  | .execute => [⟨0x31, []⟩, ⟨0x32, []⟩, ⟨0x6e, []⟩]
  | .rows columns data => ⟨0x31, []⟩ :: ⟨0x32, []⟩ :: resultMessages columns data

/-- What a server answers to a query of the extended protocol. -/
inductive ServerReply where
  | rows (columns : List Column) (rows : List (List (Option Bytes))) (tag : Bytes)
  | command (tag : Bytes)
  /-- The empty statement. -/
  | empty
  | failed (progress : Progress) (fields : List (Byte × Bytes))

/-- The messages of an answer before its ReadyForQuery. -/
def ServerReply.messages : ServerReply → List Message
  | .rows columns data tag =>
    ⟨0x31, []⟩ :: ⟨0x32, []⟩ :: (resultMessages columns data ++ [⟨0x43, tag⟩])
  | .command tag => [⟨0x31, []⟩, ⟨0x32, []⟩, ⟨0x6e, []⟩, ⟨0x43, tag⟩]
  | .empty => [⟨0x31, []⟩, ⟨0x32, []⟩, ⟨0x6e, []⟩, ⟨0x49, []⟩]
  | .failed progress fields => progress.messages ++ [⟨0x45, errorResponse fields⟩]

/-- The columns and rows of a result are within the limits of the protocol. -/
structure ResultFits (columns : List Column) (rows : List (List (Option Bytes))) : Prop where
  columns : columns.length ≤ 65535
  cells : ∀ row ∈ rows, row.length ≤ 65535
  values : ∀ row ∈ rows, ∀ value, some value ∈ row → value.length < 2 ^ 31

/-- The answer is within the limits of the protocol. -/
def ServerReply.Fits : ServerReply → Prop
  | .rows columns data _ => ResultFits columns data
  | .command _ => True
  | .empty => True
  | .failed progress fields => (∀ f ∈ fields, f.1 ≠ 0 ∧ 0 ∉ f.2) ∧
      match progress with
      | .rows columns data => ResultFits columns data
      | _ => True

/-- A message that a server may send at any time: a notice, a parameter or a notification. -/
def Message.asynchronous (m : Message) : Bool := m.type = 0x4e || m.type = 0x53 || m.type = 0x41

/-- A server sends an answer: its messages, with others in between that may come at any time, and
ReadyForQuery. -/
def Sends (r : ServerReply) (messages : List Message) : Prop :=
  (∀ m ∈ messages, m.payload.length + 4 < 2 ^ 32) ∧
    ∃ body status, messages = body ++ [⟨0x5a, status⟩] ∧
      body.filter (fun m => !m.asynchronous) = r.messages

/-- **The reply that belongs to an answer.** The empty statement has none: the read goes on until it
times out. -/
def Answers : ServerReply → Reply → Prop
  | .rows columns data tag, reply =>
    ∃ status, reply = .ok (.rows data (columns.map Column.field) tag status)
  | .command tag, reply => ∃ status, reply = .ok (.command tag status)
  | .empty, reply => reply = .error .timeout
  | .failed _ fields, reply => reply = .error (.pgError (pgError fields))

/-- The bytes of messages, one after another. -/
def stream (messages : List Message) : Bytes := messages.flatMap Message.bytes

/-- What an exchange passes over: messages that mean nothing to `read_query_response/2`. -/
structure Message.Stale (m : Message) : Prop where
  fits : m.payload.length + 4 < 2 ^ 32
  unread : m.type ≠ 0x54 ∧ m.type ≠ 0x44 ∧ m.type ≠ 0x43 ∧ m.type ≠ 0x45 ∧ m.type ≠ 0x73

/-! ### Messages are read -/

@[simp]
lemma stream_append (first second : List Message) :
    stream (first ++ second) = stream first ++ stream second := List.flatMap_append

@[simp]
lemma stream_cons (m : Message) (messages : List Message) :
    stream (m :: messages) = m.bytes ++ stream messages := List.flatMap_cons

@[simp]
lemma stream_nil : stream [] = [] := rfl

/-- **A message is read, whatever follows it.** -/
lemma readMessage_bytes {m : Message} (h : m.payload.length + 4 < 2 ^ 32) (rest : Bytes) :
    readMessage (m.bytes ++ rest) = (.ok m, rest) := by
  have hint : int32 (m.payload.length + 4) = int32 ((m.payload.length + 4 : ℕ) : ℤ) := by
    rw [Nat.cast_add, Nat.cast_ofNat]
  rw [Message.bytes, frame, hint, List.append_assoc, List.append_assoc, List.singleton_append]
  unfold readMessage
  dsimp only
  rw [reads_int32_nat h]
  dsimp only
  rw [if_neg (by omega), Nat.add_sub_cancel, reads_octets]

/-- The fields of an error are read back. -/
lemma splitErrorFields_errorResponse {fields : List (Byte × Bytes)}
    (h : ∀ f ∈ fields, f.1 ≠ 0 ∧ 0 ∉ f.2) {n : ℕ} (hn : fields.length ≤ n) :
    splitErrorFields n (errorResponse fields) = some fields := by
  induction fields generalizing n with
  | nil => cases n <;> rfl
  | cons f fields ih =>
    obtain ⟨n, rfl⟩ := Nat.exists_eq_succ_of_ne_zero (Nat.ne_of_gt (lt_of_lt_of_le
      (List.length_pos_of_ne_nil (List.cons_ne_nil f fields)) hn))
    have hrest : errorResponse (f :: fields) = f.1 :: (f.2 ++ [0] ++ errorResponse fields) := by
      simp [errorResponse]
    have hread := reads_terminated (h f List.mem_cons_self).2 (errorResponse fields)
    have hne : f.2 ++ [0] ++ errorResponse fields ≠ [] := by simp
    rw [hrest]
    generalize htail : f.2 ++ [0] ++ errorResponse fields = tail at *
    cases tail with
    | nil => exact absurd rfl hne
    | cons b tail =>
      rw [splitErrorFields, hread]
      · dsimp only
        rw [ih (fun g hg => h g (List.mem_cons_of_mem _ hg)) (by simpa using hn)]
        rfl
      · rintro hb -
        exact (h f List.mem_cons_self).1 hb

/-- **An error is answered with its fields.** -/
lemma errorReply_errorResponse {fields : List (Byte × Bytes)}
    (h : ∀ f ∈ fields, f.1 ≠ 0 ∧ 0 ∉ f.2) :
    errorReply (errorResponse fields) = .error (.pgError (pgError fields)) := by
  have hlength : fields.length ≤ (errorResponse fields).length := by
    rw [errorResponse, List.length_append, List.length_flatMap]
    refine le_trans ?_ (Nat.le_add_right _ _)
    induction fields with
    | nil => exact Nat.le_refl _
    | cons f fields ih =>
      have := ih fun g hg => h g (List.mem_cons_of_mem _ hg)
      simp only [List.map_cons, List.sum_cons, List.length_cons] at this ⊢
      omega
  rw [errorReply, decodeError, splitErrorFields_errorResponse h hlength]
  rfl

/-- The columns of a result are read. -/
lemma decodeRowDescription_rowDescription {columns : List Column}
    (h : columns.length ≤ 65535) :
    decodeRowDescription (rowDescription columns) = some (columns.map Column.field) := by
  rw [decodeRowDescription, rowDescription, reads_int16_nat (by omega)]
  exact congrArg some (decodeFields_encode columns [])

/-- A row of a result is read. -/
lemma decodeDataRow_dataRow {row : List (Option Bytes)} (hcells : row.length ≤ 65535)
    (hvalues : ∀ value, some value ∈ row → value.length < 2 ^ 31) :
    decodeDataRow (dataRow row) = some row := by
  rw [decodeDataRow, dataRow, reads_int16_nat (by omega)]
  exact decodeRowCells_encode hvalues []

/-! ### One message of an exchange -/

variable {m : Message} {rest : Bytes} {description : List Field}
  {acc : List (List (Option Bytes))} {result : Option (List (List (Option Bytes)) × Bytes)}

/-- `read_query_response/2` on a message. -/
lemma readQueryResponse_bytes (h : m.payload.length + 4 < 2 ^ 32) :
    readQueryResponse (m.bytes ++ rest) =
      if m.type = 0x54 then
        match decodeRowDescription m.payload with
        | some description => collectRows description [] none rest
        | none => (.error .raised, rest)
      else if m.type = 0x44 then (.ok (.data m.payload), rest)
      else if m.type = 0x43 then completeCommand m.payload rest
      else if m.type = 0x45 then failQuery m.payload rest
      else if m.type = 0x73 then (.ok .closed, rest)
      else readQueryResponse rest := by
  rw [readQueryResponse]
  split
  next heq =>
    rw [readMessage_bytes h] at heq
    cases heq
  next heq =>
    rw [readMessage_bytes h] at heq
    cases heq
    rfl

/-- `collect_rows/5` on a message. -/
lemma collectRows_bytes (h : m.payload.length + 4 < 2 ^ 32) :
    collectRows description acc result (m.bytes ++ rest) =
      if m.type = 0x44 then
        match decodeDataRow m.payload with
        | some row => collectRows description (row :: acc) result rest
        | none => (.error .raised, rest)
      else if m.type = 0x43 then collectRows description acc (some (acc.reverse, m.payload)) rest
      else if m.type = 0x45 then (errorReply m.payload, rest)
      else if m.type = 0x5a then (.ok (putStatus description result m.payload), rest)
      else if m.type = 0x54 then (.error .unexpectedRowDescription, rest)
      else collectRows description acc result rest := by
  rw [collectRows]
  split
  next heq =>
    rw [readMessage_bytes h] at heq
    cases heq
  next heq =>
    rw [readMessage_bytes h] at heq
    cases heq
    rfl

/-- `drain_to_ready/2` on a message. -/
lemma drainToReady_bytes (h : m.payload.length + 4 < 2 ^ 32) :
    drainToReady (m.bytes ++ rest) =
      if m.type = 0x5a then (.ok (), rest) else drainToReady rest := by
  rw [drainToReady]
  split
  next heq =>
    rw [readMessage_bytes h] at heq
    cases heq
  next heq =>
    rw [readMessage_bytes h] at heq
    cases heq
  next heq =>
    rw [readMessage_bytes h] at heq
    cases heq
    rfl

/-- **What is left behind is passed over.** -/
lemma readQueryResponse_stale (rest : Bytes) {messages : List Message}
    (h : ∀ m ∈ messages, m.Stale) :
    readQueryResponse (stream messages ++ rest) = readQueryResponse rest := by
  induction messages with
  | nil => rfl
  | cons m messages ih =>
    obtain ⟨hfits, h1, h2, h3, h4, h5⟩ := h m List.mem_cons_self
    rw [stream_cons, List.append_assoc, readQueryResponse_bytes hfits, if_neg h1, if_neg h2,
      if_neg h3, if_neg h4, if_neg h5]
    exact ih fun m hm => h m (List.mem_cons_of_mem _ hm)

/-- Messages of any time do not change what is collected. -/
lemma collectRows_asynchronous {messages : List Message}
    (h : ∀ m ∈ messages, m.payload.length + 4 < 2 ^ 32 ∧ m.asynchronous = true) :
    collectRows description acc result (stream messages ++ rest) =
      collectRows description acc result rest := by
  induction messages with
  | nil => rfl
  | cons m messages ih =>
    obtain ⟨hfits, hasync⟩ := h m List.mem_cons_self
    have htype : m.type = 0x4e ∨ m.type = 0x53 ∨ m.type = 0x41 := by
      simpa [Message.asynchronous, or_assoc] using hasync
    rw [stream_cons, List.append_assoc, collectRows_bytes hfits]
    have hrest := ih fun m hm => h m (List.mem_cons_of_mem _ hm)
    rcases htype with htype | htype | htype <;> rw [htype] <;> exact hrest

/-- An error is read to the end of its group. -/
lemma drainToReady_asynchronous (rest status : Bytes) {messages : List Message}
    (h : ∀ m ∈ messages, m.payload.length + 4 < 2 ^ 32 ∧ m.asynchronous = true)
    (hstatus : status.length + 4 < 2 ^ 32) :
    drainToReady (stream messages ++ (Message.bytes ⟨0x5a, status⟩ ++ rest)) = (.ok (), rest) := by
  induction messages with
  | nil =>
    rw [stream_nil, List.nil_append, drainToReady_bytes hstatus]
    rfl
  | cons m messages ih =>
    obtain ⟨hfits, hasync⟩ := h m List.mem_cons_self
    have htype : m.type = 0x4e ∨ m.type = 0x53 ∨ m.type = 0x41 := by
      simpa [Message.asynchronous, or_assoc] using hasync
    rw [stream_cons, List.append_assoc, drainToReady_bytes hfits]
    have hrest := ih fun m hm => h m (List.mem_cons_of_mem _ hm)
    rcases htype with htype | htype | htype <;> rw [htype] <;> exact hrest

/-! ### The messages of an answer among others -/

/-- A message of an answer is found with the answer's messages before it and after it. -/
lemma exists_sent (first : List Message) {body last : List Message}
    (h : body.filter (fun m => !m.asynchronous) = first ++ m :: last) :
    ∃ early late, body = early ++ m :: late ∧
      early.filter (fun m => !m.asynchronous) = first ∧
      late.filter (fun m => !m.asynchronous) = last := by
  obtain ⟨early, late, rfl, hearly, hlate⟩ := List.filter_eq_append_iff.mp h
  obtain ⟨between, late, rfl, hbetween, -, hlast⟩ := List.filter_eq_cons_iff.mp hlate
  refine ⟨early ++ between, late, (List.append_assoc _ _ _).symm, ?_, hlast⟩
  rw [List.filter_append, hearly, List.filter_eq_nil_iff.mpr hbetween, List.append_nil]

/-- Without messages of an answer all are of any time. -/
lemma asynchronous_of_filter {messages : List Message}
    (hfits : ∀ m ∈ messages, m.payload.length + 4 < 2 ^ 32)
    (h : messages.filter (fun m => !m.asynchronous) = []) :
    ∀ m ∈ messages, m.payload.length + 4 < 2 ^ 32 ∧ m.asynchronous = true := by
  intro m hm
  have := List.filter_eq_nil_iff.mp h m hm
  exact ⟨hfits m hm, by simpa using this⟩

/-- Messages of any time are passed over. -/
lemma stale_of_asynchronous (hfits : m.payload.length + 4 < 2 ^ 32)
    (h : m.asynchronous = true) : m.Stale := by
  refine ⟨hfits, ?_⟩
  have htype : m.type = 0x4e ∨ m.type = 0x53 ∨ m.type = 0x41 := by
    simpa [Message.asynchronous, or_assoc] using h
  rcases htype with htype | htype | htype <;> rw [htype] <;> decide

/-- What precedes the columns, the completion or the error is passed over. -/
lemma stale_of_filter {messages first : List Message}
    (hfits : ∀ m ∈ messages, m.payload.length + 4 < 2 ^ 32)
    (h : messages.filter (fun m => !m.asynchronous) = first)
    (hfirst : ∀ m ∈ first, m.type = 0x31 ∨ m.type = 0x32 ∨ m.type = 0x6e ∨ m.type = 0x49) :
    ∀ m ∈ messages, m.Stale := by
  intro m hm
  by_cases hasync : m.asynchronous = true
  · exact stale_of_asynchronous (hfits m hm) hasync
  · have hmem : m ∈ first := by
      rw [← h]
      exact List.mem_filter.mpr ⟨hm, by simpa using hasync⟩
    refine ⟨hfits m hm, ?_⟩
    rcases hfirst m hmem with htype | htype | htype | htype <;> rw [htype] <;> decide

/-- The rows of a result are collected in order. -/
lemma collectRows_rows (description : List Field)
    (result : Option (List (List (Option Bytes)) × Bytes)) (rest : Bytes)
    (acc : List (List (Option Bytes))) {rows : List (List (Option Bytes))}
    {body last : List Message}
    (hfits : ∀ m ∈ body, m.payload.length + 4 < 2 ^ 32)
    (hrows : ∀ row ∈ rows, decodeDataRow (dataRow row) = some row)
    (h : body.filter (fun m => !m.asynchronous) =
      (rows.map fun row => (⟨0x44, dataRow row⟩ : Message)) ++ last) :
    ∃ late, (∀ m ∈ late, m ∈ body) ∧ late.filter (fun m => !m.asynchronous) = last ∧
      collectRows description acc result (stream body ++ rest) =
        collectRows description (rows.reverse ++ acc) result (stream late ++ rest) := by
  induction rows generalizing body acc with
  | nil => exact ⟨body, fun _ hm => hm, h, rfl⟩
  | cons row rows ih =>
    obtain ⟨early, late, rfl, hearly, hlate⟩ := exists_sent [] h
    obtain ⟨final, hfinal, hlast, hcollect⟩ := ih (row :: acc)
      (fun m hm => hfits m (by simp [hm]))
      (fun row hrow => hrows row (List.mem_cons_of_mem _ hrow)) hlate
    refine ⟨final, fun m hm => by simp [hfinal m hm], hlast, ?_⟩
    rw [stream_append, List.append_assoc, collectRows_asynchronous
      (asynchronous_of_filter (fun m hm => hfits m (by simp [hm])) hearly), stream_cons,
      List.append_assoc, collectRows_bytes (hfits _ (by simp)), if_pos rfl,
      hrows row List.mem_cons_self]
    dsimp only
    rw [hcollect, List.reverse_cons, List.append_assoc, List.singleton_append]

/-! ### One exchange -/

/-- The limits of a result make its rows readable. -/
lemma ResultFits.read {columns : List Column} {rows : List (List (Option Bytes))}
    (h : ResultFits columns rows) : ∀ row ∈ rows, decodeDataRow (dataRow row) = some row :=
  fun row hrow => decodeDataRow_dataRow (h.cells row hrow) (h.values row hrow)

/-- ReadyForQuery is passed over. -/
lemma stale_ready {status : Bytes} (h : status.length + 4 < 2 ^ 32) :
    Message.Stale ⟨0x5a, status⟩ := by
  refine ⟨h, ?_⟩
  dsimp only
  decide

/-- The messages before the columns are passed over. -/
lemma opened_type : ∀ m ∈ [(⟨0x31, []⟩ : Message), ⟨0x32, []⟩],
    m.type = 0x31 ∨ m.type = 0x32 ∨ m.type = 0x6e ∨ m.type = 0x49 := by
  simp

/-- From the columns of a result to its rows. -/
lemma readQueryResponse_result (rest : Bytes) {columns : List Column}
    {rows : List (List (Option Bytes))} {body last : List Message}
    (hfits : ∀ m ∈ body, m.payload.length + 4 < 2 ^ 32) (hresult : ResultFits columns rows)
    (h : body.filter (fun m => !m.asynchronous) =
      ⟨0x31, []⟩ :: ⟨0x32, []⟩ :: (resultMessages columns rows ++ last)) :
    ∃ late, (∀ m ∈ late, m ∈ body) ∧ late.filter (fun m => !m.asynchronous) = last ∧
      readQueryResponse (stream body ++ rest) =
        collectRows (columns.map Column.field) rows.reverse none (stream late ++ rest) := by
  obtain ⟨early, late, rfl, hearly, hlate⟩ := exists_sent
    [⟨0x31, []⟩, ⟨0x32, []⟩] (m := ⟨0x54, rowDescription columns⟩) h
  obtain ⟨final, hfinal, hlast, hcollect⟩ := collectRows_rows (columns.map Column.field) none
    rest [] (fun m hm => hfits m (by simp [hm])) hresult.read hlate
  refine ⟨final, fun m hm => by simp [hfinal m hm], hlast, ?_⟩
  rw [stream_append, List.append_assoc, readQueryResponse_stale _
    (stale_of_filter (fun m hm => hfits m (by simp [hm])) hearly opened_type), stream_cons,
    List.append_assoc, readQueryResponse_bytes (hfits _ (by simp)), if_pos rfl,
    decodeRowDescription_rowDescription hresult.columns]
  dsimp only
  rw [hcollect, List.append_nil]

/-- A completion is answered, with what follows it up to ReadyForQuery left behind. -/
lemma completeCommand_asynchronous (tag : Bytes) {status : Bytes} {messages : List Message}
    (h : ∀ m ∈ messages, m.payload.length + 4 < 2 ^ 32 ∧ m.asynchronous = true)
    (hstatus : status.length + 4 < 2 ^ 32) :
    ∃ found left, (∀ m ∈ left, m.Stale) ∧
      completeCommand tag (stream (messages ++ [⟨0x5a, status⟩])) =
        (.ok (.command tag found), stream left) := by
  cases messages with
  | nil =>
    refine ⟨some status, [], fun _ hm => absurd hm List.not_mem_nil, ?_⟩
    rw [List.nil_append, stream_cons, completeCommand, readMessage_bytes hstatus]
    rfl
  | cons m messages =>
    obtain ⟨hfits, hasync⟩ := h m List.mem_cons_self
    have htype : m.type ≠ 0x5a := by
      intro htype
      rw [Message.asynchronous, htype] at hasync
      exact absurd hasync (by decide)
    refine ⟨none, messages ++ [⟨0x5a, status⟩], ?_, ?_⟩
    · intro m hm
      rcases List.mem_append.mp hm with hm | hm
      · obtain ⟨hfits, hasync⟩ := h m (List.mem_cons_of_mem _ hm)
        exact stale_of_asynchronous hfits hasync
      · rw [List.mem_singleton.mp hm]
        exact stale_ready hstatus
    · rw [List.cons_append, stream_cons, completeCommand, readMessage_bytes hfits]
      dsimp only
      rw [if_neg htype]

/-- **A failure before any column is answered with its fields, and nothing is left behind.** -/
lemma readQueryResponse_failed (first : List Message) {fields : List (Byte × Bytes)}
    {body : List Message} {status : Bytes} (hfits : ∀ m ∈ body, m.payload.length + 4 < 2 ^ 32)
    (hstatus : status.length + 4 < 2 ^ 32) (hfields : ∀ f ∈ fields, f.1 ≠ 0 ∧ 0 ∉ f.2)
    (hfirst : ∀ m ∈ first, m.type = 0x31 ∨ m.type = 0x32 ∨ m.type = 0x6e ∨ m.type = 0x49)
    (h : body.filter (fun m => !m.asynchronous) = first ++ [⟨0x45, errorResponse fields⟩]) :
    readQueryResponse (stream (body ++ [⟨0x5a, status⟩])) =
      (.error (.pgError (pgError fields)), []) := by
  obtain ⟨early, late, rfl, hearly, hlate⟩ := exists_sent _ h
  rw [List.append_assoc, stream_append, readQueryResponse_stale _
    (stale_of_filter (fun m hm => hfits m (by simp [hm])) hearly hfirst), List.cons_append,
    stream_cons, readQueryResponse_bytes (hfits _ (by simp))]
  have hdrain := drainToReady_asynchronous [] status
    (asynchronous_of_filter (fun m hm => hfits m (by simp [hm])) hlate) hstatus
  rw [stream_append, stream_cons, stream_nil]
  change failQuery _ _ = _
  rw [failQuery, hdrain]
  dsimp only
  rw [errorReply_errorResponse hfields]

/-- A failure among the rows is answered with its fields, and ReadyForQuery is left behind. -/
lemma readQueryResponse_rows_failed {columns : List Column} {rows : List (List (Option Bytes))}
    {fields : List (Byte × Bytes)} {body : List Message} {status : Bytes}
    (hfits : ∀ m ∈ body, m.payload.length + 4 < 2 ^ 32) (hstatus : status.length + 4 < 2 ^ 32)
    (hfields : ∀ f ∈ fields, f.1 ≠ 0 ∧ 0 ∉ f.2) (hresult : ResultFits columns rows)
    (h : body.filter (fun m => !m.asynchronous) = ⟨0x31, []⟩ :: ⟨0x32, []⟩ ::
      (resultMessages columns rows ++ [⟨0x45, errorResponse fields⟩])) :
    ∃ left, (∀ m ∈ left, m.Stale) ∧ readQueryResponse (stream (body ++ [⟨0x5a, status⟩])) =
      (.error (.pgError (pgError fields)), stream left) := by
  obtain ⟨late, hlate, hlast, hread⟩ := readQueryResponse_result
    (stream [⟨0x5a, status⟩]) hfits hresult h
  obtain ⟨early, final, rfl, hearly, hfinal⟩ := exists_sent [] hlast
  have hasync := asynchronous_of_filter (fun m hm => hfits m (hlate m (by simp [hm]))) hfinal
  refine ⟨final ++ [⟨0x5a, status⟩], ?_, ?_⟩
  · intro m hm
    rcases List.mem_append.mp hm with hm | hm
    · exact stale_of_asynchronous (hasync m hm).1 (hasync m hm).2
    · rw [List.mem_singleton.mp hm]
      exact stale_ready hstatus
  · rw [stream_append, hread, stream_append, List.append_assoc, collectRows_asynchronous
      (asynchronous_of_filter (fun m hm => hfits m (hlate m (by simp [hm]))) hearly), stream_cons,
      List.append_assoc, collectRows_bytes (hfits _ (hlate _ (by simp)))]
    change (errorReply _, _) = _
    rw [errorReply_errorResponse hfields, stream_append]

/-- A result is answered with its rows, and nothing is left behind. -/
lemma readQueryResponse_rows {columns : List Column} {rows : List (List (Option Bytes))}
    {tag status : Bytes} {body : List Message}
    (hfits : ∀ m ∈ body, m.payload.length + 4 < 2 ^ 32) (hstatus : status.length + 4 < 2 ^ 32)
    (hresult : ResultFits columns rows)
    (h : body.filter (fun m => !m.asynchronous) = ⟨0x31, []⟩ :: ⟨0x32, []⟩ ::
      (resultMessages columns rows ++ [⟨0x43, tag⟩])) :
    readQueryResponse (stream (body ++ [⟨0x5a, status⟩])) =
      (.ok (.rows rows (columns.map Column.field) tag status), []) := by
  obtain ⟨late, hlate, hlast, hread⟩ := readQueryResponse_result
    (stream [⟨0x5a, status⟩]) hfits hresult h
  obtain ⟨early, final, rfl, hearly, hfinal⟩ := exists_sent [] hlast
  rw [stream_append, hread, stream_append, List.append_assoc, collectRows_asynchronous
    (asynchronous_of_filter (fun m hm => hfits m (hlate m (by simp [hm]))) hearly), stream_cons,
    List.append_assoc, collectRows_bytes (hfits _ (hlate _ (by simp)))]
  change collectRows _ _ (some (rows.reverse.reverse, tag)) _ = _
  rw [collectRows_asynchronous
    (asynchronous_of_filter (fun m hm => hfits m (hlate m (by simp [hm]))) hfinal), stream_cons,
    collectRows_bytes hstatus, List.reverse_reverse]
  rfl

/-- A command is answered with its completion. -/
lemma readQueryResponse_command {tag status : Bytes} {body : List Message}
    (hfits : ∀ m ∈ body, m.payload.length + 4 < 2 ^ 32) (hstatus : status.length + 4 < 2 ^ 32)
    (h : body.filter (fun m => !m.asynchronous) =
      [⟨0x31, []⟩, ⟨0x32, []⟩, ⟨0x6e, []⟩] ++ [⟨0x43, tag⟩]) :
    ∃ found left, (∀ m ∈ left, m.Stale) ∧
      readQueryResponse (stream (body ++ [⟨0x5a, status⟩])) =
        (.ok (.command tag found), stream left) := by
  obtain ⟨early, late, rfl, hearly, hlate⟩ := exists_sent _ h
  obtain ⟨found, left, hleft, hcomplete⟩ := completeCommand_asynchronous tag
    (asynchronous_of_filter (fun m hm => hfits m (by simp [hm])) hlate) hstatus
  refine ⟨found, left, hleft, ?_⟩
  rw [List.append_assoc, stream_append, readQueryResponse_stale _
    (stale_of_filter (fun m hm => hfits m (by simp [hm])) hearly (by simp)), List.cons_append,
    stream_cons, readQueryResponse_bytes (hfits _ (by simp))]
  exact hcomplete

/-- The empty statement: all is passed over, until nothing comes. -/
lemma readQueryResponse_empty {status : Bytes} {body : List Message}
    (hfits : ∀ m ∈ body, m.payload.length + 4 < 2 ^ 32) (hstatus : status.length + 4 < 2 ^ 32)
    (h : body.filter (fun m => !m.asynchronous) =
      [⟨0x31, []⟩, ⟨0x32, []⟩, ⟨0x6e, []⟩, ⟨0x49, []⟩]) :
    readQueryResponse (stream (body ++ [⟨0x5a, status⟩])) = (.error .timeout, []) := by
  have hstale : ∀ m ∈ body ++ [⟨0x5a, status⟩], m.Stale := by
    intro m hm
    rcases List.mem_append.mp hm with hm | hm
    · exact stale_of_filter hfits h (by simp) m hm
    · rw [List.mem_singleton.mp hm]
      exact stale_ready hstatus
  have hread := readQueryResponse_stale [] hstale
  rw [List.append_nil] at hread
  rw [hread, readQueryResponse]
  rfl

/-- **One exchange.** Behind messages that are passed over, the messages of an answer are read as
the reply that belongs to it, and only messages that are passed over are left behind.

**Proof sketch.** By the kind of the answer: its first message that means something to the reader is
found among the others (`exists_sent`), and what is left is of any time, or ReadyForQuery. -/
theorem readQueryResponse_sends {r : ServerReply} {messages left : List Message}
    (hsends : Sends r messages) (hfits : r.Fits) (hleft : ∀ m ∈ left, m.Stale) :
    ∃ reply left', readQueryResponse (stream left ++ stream messages) = (reply, stream left') ∧
      (∀ m ∈ left', m.Stale) ∧ Answers r reply := by
  obtain ⟨hlength, body, status, rfl, hbody⟩ := hsends
  have hbodyfits : ∀ m ∈ body, m.payload.length + 4 < 2 ^ 32 :=
    fun m hm => hlength m (List.mem_append_left _ hm)
  have hstatus : status.length + 4 < 2 ^ 32 := hlength ⟨0x5a, status⟩ (by simp)
  have hnone : ∀ m ∈ ([] : List Message), m.Stale := fun _ hm => absurd hm List.not_mem_nil
  rw [readQueryResponse_stale _ hleft]
  cases r with
  | rows columns data tag =>
    exact ⟨_, [], readQueryResponse_rows hbodyfits hstatus hfits hbody, hnone, status, rfl⟩
  | command tag =>
    obtain ⟨found, left', hstale, hread⟩ := readQueryResponse_command hbodyfits hstatus hbody
    exact ⟨_, left', hread, hstale, found, rfl⟩
  | empty => exact ⟨_, [], readQueryResponse_empty hbodyfits hstatus hbody, hnone, rfl⟩
  | failed progress fields =>
    obtain ⟨hfields, hprogress⟩ := hfits
    cases progress with
    | rows columns data =>
      obtain ⟨left', hstale, hread⟩ :=
        readQueryResponse_rows_failed hbodyfits hstatus hfields hprogress hbody
      exact ⟨_, left', hread, hstale, rfl⟩
    | parse =>
      exact ⟨_, [], readQueryResponse_failed [] hbodyfits hstatus hfields (by simp)
        hbody, hnone, rfl⟩
    | bind =>
      exact ⟨_, [], readQueryResponse_failed [⟨0x31, []⟩] hbodyfits hstatus hfields
        (by simp) hbody, hnone, rfl⟩
    | describe =>
      exact ⟨_, [], readQueryResponse_failed [⟨0x31, []⟩, ⟨0x32, []⟩] hbodyfits hstatus
        hfields (by simp) hbody, hnone, rfl⟩
    | execute =>
      exact ⟨_, [], readQueryResponse_failed [⟨0x31, []⟩, ⟨0x32, []⟩, ⟨0x6e, []⟩]
        hbodyfits hstatus hfields (by simp) hbody, hnone, rfl⟩

/-- A reply that belongs to an answer leaves the owner alive. -/
lemma Answers.ne_raised {r : ServerReply} {reply : Reply} (h : Answers r reply) :
    reply ≠ .error .raised := by
  rintro rfl
  cases r with
  | rows => obtain ⟨status, h⟩ := h; cases h
  | command => obtain ⟨status, h⟩ := h; cases h
  | empty => cases h
  | failed => cases h

/-- One turn of the owner. -/
lemma ownerReceive_sends {r : ServerReply} {messages left : List Message}
    (hsends : Sends r messages) (hfits : r.Fits) (hleft : ∀ m ∈ left, m.Stale) :
    ∃ reply left', ownerReceive (some (stream left)) (stream messages) =
      (reply, some (stream left')) ∧ (∀ m ∈ left', m.Stale) ∧ Answers r reply := by
  obtain ⟨reply, left', hread, hleft', hanswers⟩ := readQueryResponse_sends hsends hfits hleft
  refine ⟨reply, left', ?_, hleft', hanswers⟩
  rw [ownerReceive, hread]
  have hne := hanswers.ne_raised
  split
  next heq =>
    obtain ⟨rfl, -⟩ := Prod.mk.inj heq
    exact absurd rfl hne
  next heq =>
    obtain ⟨rfl, rfl⟩ := Prod.mk.inj heq
    rfl

/-- **Replies match their queries.** On a connection whose server answers each query within the
limits of the protocol, with messages of any time in between, every query is answered with the rows,
the completion or the error of its own group, whatever is in the socket that an exchange passes
over: what the start-up left there (its parameters, the key of the backend and ReadyForQuery come
behind AuthenticationOk, the last message that it reads), and what the queries before it did.

**Proof sketch.** By induction on the queries, with only messages that are passed over in the socket
before each of them (`ownerReceive_sends`). -/
theorem serveQueries_answers {answers : List ServerReply} {groups : List (List Message)}
    {left : List Message} (hsends : List.Forall₂ Sends answers groups)
    (hfits : ∀ r ∈ answers, r.Fits) (hleft : ∀ m ∈ left, m.Stale) :
    List.Forall₂ Answers answers (serveQueries (some (stream left)) (groups.map stream)) := by
  induction hsends generalizing left with
  | nil =>
    rw [List.map_nil, serveQueries]
    exact .nil
  | cons hsend _ ih =>
    obtain ⟨reply, left', howner, hleft', hanswers⟩ :=
      ownerReceive_sends hsend (hfits _ List.mem_cons_self) hleft
    rw [List.map_cons, serveQueries, howner]
    exact .cons hanswers (ih (fun r hr => hfits r (List.mem_cons_of_mem _ hr)) hleft')

namespace Sample

/-- The fields of an error among the rows. -/
def divisionByZero : List (Byte × Bytes) :=
  [(0x53, Bytes.ofString "ERROR"), (0x43, Bytes.ofString "22012"),
    (0x4d, Bytes.ofString "division by zero"), (0x46, Bytes.ofString "int.c")]

/-- A query that fails after a row, a command and a query for a row. -/
def answers : List ServerReply :=
  [.failed (.rows [column] [cells.take 1]) divisionByZero, .command (Bytes.ofString "INSERT 0 1"),
    .rows [column] [cells.take 1] (Bytes.ofString "SELECT 1")]

/-- A notice. -/
def notice : Message := ⟨0x4e, []⟩

/-- Their messages before ReadyForQuery, with a notice in each of the first two. -/
def bodies : List (List Message) :=
  [[⟨0x31, []⟩, ⟨0x32, []⟩, ⟨0x54, rowDescription [column]⟩, notice, ⟨0x44, dataRow (cells.take 1)⟩,
      ⟨0x45, errorResponse divisionByZero⟩],
    [⟨0x31, []⟩, ⟨0x32, []⟩, ⟨0x6e, []⟩, ⟨0x43, Bytes.ofString "INSERT 0 1"⟩, notice],
    [⟨0x31, []⟩, ⟨0x32, []⟩, ⟨0x54, rowDescription [column]⟩, ⟨0x44, dataRow (cells.take 1)⟩,
      ⟨0x43, Bytes.ofString "SELECT 1"⟩]]

/-- Their messages. -/
def groups : List (List Message) := bodies.map fun body => body ++ [⟨0x5a, [0x49]⟩]

/-- What the server sends behind AuthenticationOk: a parameter, the key of the backend and
ReadyForQuery. -/
def startUp : List Message :=
  [⟨0x53, Bytes.ofString "server_version" ++ [0] ++ Bytes.ofString "17.2" ++ [0]⟩,
    ⟨0x4b, [0, 0, 0, 7, 1, 2, 3, 4]⟩, ⟨0x5a, [0x49]⟩]

/-- Small enough. -/
lemma resultFits : ResultFits [column] [cells.take 1] where
  columns := by decide
  cells := by decide
  values := by
    intro row hrow value hvalue
    have hall : ∀ row ∈ [cells.take 1], ∀ cell ∈ row, (cell.getD []).length < 2 ^ 31 := by decide
    exact hall row hrow _ hvalue

end Sample

/-- The first query finds the messages of the start-up in the socket. It fails after a row and
leaves its ReadyForQuery behind, a command a notice and its ReadyForQuery, and the replies are still
their own. -/
theorem serveQueries_answers_sample :
    List.Forall₂ Answers Sample.answers
      (serveQueries (some (stream Sample.startUp)) (Sample.groups.map stream)) :=
  serveQueries_answers
    (.cons ⟨by decide, Sample.bodies[0], [0x49], rfl, rfl⟩
      (.cons ⟨by decide, Sample.bodies[1], [0x49], rfl, rfl⟩
        (.cons ⟨by decide, Sample.bodies[2], [0x49], rfl, rfl⟩ .nil)))
    (by
      rintro r hr
      simp only [Sample.answers, List.mem_cons, List.not_mem_nil, or_false] at hr
      rcases hr with rfl | rfl | rfl
      · exact ⟨by decide, Sample.resultFits⟩
      · trivial
      · exact Sample.resultFits)
    (by
      rintro m hm
      simp only [Sample.startUp, List.mem_cons, List.not_mem_nil, or_false] at hm
      rcases hm with rfl | rfl | rfl
      all_goals exact ⟨by decide, by decide⟩)

end VitrialSync.Beam.Pgconn
