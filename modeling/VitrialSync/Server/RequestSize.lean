import VitrialSync.Python.Codec
import VitrialSync.Python.Json

set_option relaxedAutoImplicit false
set_option autoImplicit false

/-!
# The size guard

`app/request_size.py`: the middleware that reads the body of a request on a limited path, counts it
and replays it to the application. The limits are looked up in the environment, one variable a
prefix; `limits` hands the value of that variable on as the name of another one.

A list of messages is what the client has sent so far. A middleware that has read all of them waits
for the next one.

## Main definitions

* `VitrialSync.RequestSize.parseInt` — `int()` on a text or on bytes.
* `VitrialSync.RequestSize.limitForPath` — `limit_for_path`.
* `VitrialSync.RequestSize.readCapped` — `_read_capped`.
* `VitrialSync.RequestSize.call` — the middleware.
* `VitrialSync.RequestSize.ForwardsExactly` — the application is invoked with the bodies that the
  client completed and that are within the configured limit, and with no others.

## Main results

* `VitrialSync.RequestSize.readCapped_eq_body` — what the middleware reads.
* `VitrialSync.RequestSize.forwardsExactly_iff` — exactly when the middleware forwards exactly.
-/

namespace VitrialSync.RequestSize

open Python

/-! ### Integers -/

/-- The white space that `int` skips, as it is transformed. -/
def intSpace (c : ℕ) : Bool := (9 ≤ c && c ≤ 13) || c == 32

/-- Digits with single underscores between them; `afterDigit` tells whether a digit came last. -/
def digitRun : (afterDigit : Bool) → List ℕ → Option (List ℕ)
  | afterDigit, [] => if afterDigit then some [] else none
  | afterDigit, c :: rest =>
    if 48 ≤ c ∧ c ≤ 57 then (digitRun true rest).map fun digits => (c - 48) :: digits
    else if c = 95 ∧ afterDigit then digitRun false rest
    else none

/-- The sign, if there is one. -/
def signed : List ℕ → Bool × List ℕ
  | 45 :: rest => (true, rest)
  | 43 :: rest => (false, rest)
  | rest => (false, rest)

/-- `int()` of ASCII characters, `none` for its `ValueError`. -/
def parseInt (s : List ℕ) : Option ℤ := do
  let (neg, body) := signed ((s.dropWhile intSpace).rdropWhile intSpace)
  let digits ← digitRun false body
  if Json.maxIntDigits < digits.length then none
  else some (if neg then -(ofDigits digits : ℤ) else ofDigits digits)

/-- What `int` makes of a character before it reads it: decimal digits of all scripts and white space
become ASCII. -/
def transform (c : CodePoint) : ℕ :=
  if c.val < 127 then c.val
  else if isSpace c then 32
  else
    match decimalValue? c with
    | some d => 48 + d
    | none => 63

/-- `int(text)`. -/
def intOfText (text : Str) : Option ℤ := parseInt (text.map transform)

/-- `int(value)` of bytes. -/
def intOfBytes (value : Bytes) : Option ℤ := parseInt (value.map fun b => b.val)

/-! ### Limits -/

/-- `os.getenv`. -/
abbrev Environ := Str → Option Str

/-- `DEFAULT_PATH_LIMITS`. -/
def defaultPathLimits : List (Str × ℕ) :=
  [(Str.ofString "/api/v1/auth/pair", 16 * 1024),
    (Str.ofString "/api/v1/sync/push", 4 * (1024 * 1024)),
    (Str.ofString "/api/v2/sync/push", 4 * (1024 * 1024)),
    (Str.ofString "/internal/admin/v1", 64 * 1024)]

/-- `_positive_int`. -/
def positiveInt (env : Environ) (name : Str) (fallback : ℕ) : ℕ :=
  match env name with
  | none => fallback
  | some raw =>
    match intOfText raw with
    | none => fallback
    | some value => if 0 < value then value.toNat else fallback

/-- `ch.isalnum()` of an ASCII character. -/
def isAlnum (c : CodePoint) : Bool :=
  (48 ≤ c.val && c.val ≤ 57) || (65 ≤ c.val && c.val ≤ 90) || (97 ≤ c.val && c.val ≤ 122)

/-- `ch.upper()` of an ASCII character. -/
def asciiUpper (c : CodePoint) : CodePoint :=
  if h : 97 ≤ c.val ∧ c.val ≤ 122 then ⟨c.val - 32, by omega⟩ else c

/-- The underscore. -/
def underscore : CodePoint := CodePoint.ofChar '_'

/-- `_env_suffix`. The prefixes are ASCII. -/
def envSuffix (pathPrefix : Str) : Str :=
  let replaced := pathPrefix.map fun c => if isAlnum c then c else underscore
  ((replaced.dropWhile (· == underscore)).rdropWhile (· == underscore)).map asciiUpper

/-- The variable that overrides the limit of a prefix. -/
def overrideName (pathPrefix : Str) : Str :=
  Str.ofString "VITRIAL_MAX_BODY_BYTES_" ++ envSuffix pathPrefix

/-- `limits`: the value of the variable is looked up as a name. -/
def limits (env : Environ) : List (Str × ℕ) :=
  defaultPathLimits.map fun r =>
    (r.1,
      match env (overrideName r.1) with
      | some override => if override.isEmpty then r.2 else positiveInt env override r.2
      | none => r.2)

/-- The loop of `limit_for_path`: the best limit so far, and the length of its prefix. -/
def longest : List (Str × ℕ) → Str → Option ℕ → ℤ → Option ℕ
  | [], _, best, _ => best
  | r :: rest, path, best, bestLength =>
    if r.1.isPrefixOf path && decide (bestLength < r.1.length) then
      longest rest path (some r.2) r.1.length
    else longest rest path best bestLength

/-- `limit_for_path`. -/
def limitForPath (env : Environ) (path : Str) : Option ℕ := longest (limits env) path none (-1)

/-- The name of the header of the declared length. -/
def contentLength : Bytes := Bytes.ofString "content-length"

/-- `declared_length`. -/
def declaredLength (headers : List (Bytes × Bytes)) : Option ℕ :=
  match headers.find? fun h => h.1 == contentLength with
  | none => none
  | some h =>
    match intOfBytes h.2 with
    | none => none
    | some parsed => if 0 ≤ parsed then some parsed.toNat else none

/-! ### The middleware -/

/-- A message of the client. -/
inductive Message where
  /-- `http.request`; no body is an absent one or `None`. -/
  | request (body : Option Bytes) (moreBody : Bool)
  /-- `http.disconnect`. -/
  | disconnect
  | other

/-- What `_read_capped` comes to. -/
inductive Read where
  | body (body : Bytes)
  | exceeded
  /-- The next message has not arrived. -/
  | waiting

/-- `_read_capped`. -/
def readCapped (limit : ℕ) : List Message → (total : ℕ) → (chunks : List Bytes) → Read
  | [], _, _ => .waiting
  | .disconnect :: _, _, chunks => .body chunks.flatten
  | .other :: rest, total, chunks => readCapped limit rest total chunks
  | .request body moreBody :: rest, total, chunks =>
    let body := body.getD []
    if limit < total + body.length then .exceeded
    else if moreBody then readCapped limit rest (total + body.length) (chunks ++ [body])
    else .body (chunks ++ [body]).flatten

/-- `_ReplayReceive`: the message of each call. -/
def replayReceive (body : Bytes) : ℕ → Message
  | 0 => .request (some body) false
  | _ + 1 => .disconnect

/-- How the application is invoked. -/
inductive Invocation where
  /-- With the client's own messages. -/
  | passed
  | replayed (receive : ℕ → Message)

/-- A response. -/
structure Response where
  status : ℕ
  headers : List (String × Str)
  body : String

/-- `_reject`. -/
def reject (limit : ℕ) : Response where
  status := 413
  headers := [("content-type", Str.ofString "application/json"), ("content-length", Str.ofNat 35),
    ("cache-control", Str.ofString "no-store"), ("x-vitrial-max-body-bytes", Str.ofNat limit)]
  body := "\x7b\"detail\":\"request body too large\"\x7d"

/-- What the middleware does: how it invokes the application, and whether it rejects the request. -/
structure Outcome where
  invoked : Option Invocation
  rejected : Option Response

/-- What the middleware reads of the scope. -/
structure Scope where
  kind : Str
  path : Str
  method : Option Str
  headers : List (Bytes × Bytes)

/-- `__call__`. `disconnects` tells of which bodies the application raises `ClientDisconnect`. -/
def call (env : Environ) (disconnects : Bytes → Bool) (scope : Scope) (messages : List Message) :
    Outcome :=
  if scope.kind ≠ Str.ofString "http" then ⟨some .passed, none⟩
  else
    match limitForPath env scope.path with
    | none => ⟨some .passed, none⟩
    | some limit =>
      if scope.method.getD (Str.ofString "GET") = Str.ofString "GET" then ⟨some .passed, none⟩
      else if (declaredLength scope.headers).any (limit < ·) then ⟨none, some (reject limit)⟩
      else
        match readCapped limit messages 0 [] with
        | .waiting => ⟨none, none⟩
        | .exceeded => ⟨none, some (reject limit)⟩
        | .body buffered =>
          ⟨some (.replayed (replayReceive buffered)),
            if disconnects buffered then some (reject limit) else none⟩

/-! ### What is forwarded -/

/-- How the body of a client ends. -/
inductive Ending where
  /-- With a last message that has no more body. -/
  | completed (body : Bytes)
  /-- With a disconnect, after some of the body. -/
  | cut (body : Bytes)
  deriving DecidableEq

/-- An ending after a chunk. -/
def Ending.after (chunk : Bytes) : Ending → Ending
  | completed body => completed (chunk ++ body)
  | cut body => cut (chunk ++ body)

/-- The bytes of an ending. -/
def Ending.bytes : Ending → Bytes
  | completed body => body
  | cut body => body

/-- How the messages end the body, if they do. -/
def ending : List Message → Option Ending
  | [] => none
  | .disconnect :: _ => some (.cut [])
  | .other :: rest => ending rest
  | .request body moreBody :: rest =>
    if moreBody then (ending rest).map (Ending.after (body.getD []))
    else some (.completed (body.getD []))

/-- The limits as they are configured: the positive integer in the variable of a prefix when it is
set to one, and the default otherwise. -/
def configuredLimits (env : Environ) : List (Str × ℕ) :=
  defaultPathLimits.map fun r => (r.1, positiveInt env (overrideName r.1) r.2)

/-- The configured limit of a path. -/
def configuredLimit (env : Environ) (path : Str) : Option ℕ :=
  longest (configuredLimits env) path none (-1)

/-- A body within a limit, and what was declared of it. -/
def Within (limit : Option ℕ) (declared : Option ℕ) (length : ℕ) : Prop :=
  ∃ most, limit = some most ∧ (∀ n, declared = some n → n ≤ most) ∧ length ≤ most

/-- The application is invoked with a body exactly when the client completed that body and it is
within the configured limit. -/
def ForwardsExactly (env : Environ) (disconnects : Bytes → Bool) (scope : Scope)
    (messages : List Message) : Prop :=
  ∀ body, (call env disconnects scope messages).invoked =
      some (.replayed (replayReceive body)) ↔
    ending messages = some (.completed body) ∧
      Within (configuredLimit env scope.path) (declaredLength scope.headers) body.length

/-- A body that the client cut short is over the limit in use, and one that the client completed is
within the limit in use exactly when it is within the configured one. -/
def Agrees (env : Environ) (scope : Scope) (messages : List Message) : Prop :=
  (∀ body, ending messages = some (.cut body) →
    ¬Within (limitForPath env scope.path) (declaredLength scope.headers) body.length) ∧
  ∀ body, ending messages = some (.completed body) →
    (Within (limitForPath env scope.path) (declaredLength scope.headers) body.length ↔
      Within (configuredLimit env scope.path) (declaredLength scope.headers) body.length)

/-- An ending after a chunk is longer by the chunk. -/
lemma Ending.bytes_after (chunk : Bytes) (e : Ending) :
    (e.after chunk).bytes = chunk ++ e.bytes := by
  cases e <;> rfl

/-- What the middleware reads: the bytes up to the end of the body or the disconnect, when they are
within the limit.

**Proof sketch.** Induction on the messages, with any bytes before them that are within the limit.
The sum of the lengths is checked after every chunk, and it only grows. -/
lemma readCapped_eq_body {limit : ℕ} {messages : List Message} {total : ℕ} {chunks : List Bytes}
    (htotal : total ≤ limit) {body : Bytes} :
    readCapped limit messages total chunks = .body body ↔
      ∃ e, ending messages = some e ∧ body = chunks.flatten ++ e.bytes ∧
        total + e.bytes.length ≤ limit := by
  induction messages generalizing total chunks with
  | nil => simp [readCapped, ending]
  | cons message rest ih =>
    cases message with
    | disconnect =>
      simp only [readCapped, ending, Read.body.injEq, Option.some.injEq, exists_eq_left',
        Ending.bytes, List.append_nil, List.length_nil, Nat.add_zero, htotal, and_true]
      exact eq_comm
    | other => simpa only [readCapped, ending] using ih htotal
    | request chunk moreBody =>
      by_cases hover : limit < total + (chunk.getD []).length
      · simp only [readCapped, hover, ↓reduceIte, reduceCtorEq, false_iff, not_exists, not_and]
        intro e hending _ hle
        cases moreBody with
        | true =>
          simp only [ending, ↓reduceIte, Option.map_eq_some_iff] at hending
          obtain ⟨e', -, rfl⟩ := hending
          rw [Ending.bytes_after, List.length_append] at hle
          omega
        | false =>
          simp only [ending, Bool.false_eq_true, ↓reduceIte, Option.some.injEq] at hending
          subst hending
          simp only [Ending.bytes] at hle
          omega
      · cases moreBody with
        | true =>
          simp only [readCapped, hover, ↓reduceIte, ending]
          rw [ih (not_lt.mp hover)]
          constructor
          · rintro ⟨e, hending, rfl, hle⟩
            refine ⟨e.after (chunk.getD []), by rw [hending]; rfl, ?_, ?_⟩
            · simp [Ending.bytes_after]
            · rw [Ending.bytes_after, List.length_append]
              omega
          · rintro ⟨e', hending, rfl, hle⟩
            obtain ⟨e, he, rfl⟩ := Option.map_eq_some_iff.mp hending
            rw [Ending.bytes_after, List.length_append] at hle
            refine ⟨e, he, by simp [Ending.bytes_after], by omega⟩
        | false =>
          simp only [readCapped, hover, Bool.false_eq_true, ↓reduceIte, ending, Read.body.injEq,
            Option.some.injEq, exists_eq_left', Ending.bytes]
          simp only [List.flatten_append, List.flatten_singleton]
          constructor
          · rintro rfl
            exact ⟨rfl, not_lt.mp hover⟩
          · exact fun h => h.1.symm

/-- The replayed message shows the body. -/
lemma replayReceive_injective {a b : Bytes} (h : replayReceive a = replayReceive b) : a = b := by
  have hfirst := congrFun h 0
  simpa [replayReceive] using hfirst

/-- A prefix of a table that matches gives a limit. -/
lemma longest_isSome {table : List (Str × ℕ)} {path : Str} {best : Option ℕ} {bestLength : ℤ}
    (h : best.isSome = true ∨ bestLength = -1 ∧ ∃ r ∈ table, r.1.isPrefixOf path = true) :
    (longest table path best bestLength).isSome = true := by
  induction table generalizing best bestLength with
  | nil => simpa [longest] using h
  | cons r rest ih =>
    rw [longest]
    split_ifs with hmatch
    · exact ih (.inl rfl)
    · rcases h with h | ⟨rfl, r', hr', hpath⟩
      · exact ih (.inl h)
      · rcases List.mem_cons.mp hr' with rfl | hr'
        · simp only [hpath, Bool.true_and, decide_eq_true_eq, not_lt] at hmatch
          omega
        · exact ih (.inr ⟨rfl, r', hr', hpath⟩)

/-- A path under one of the prefixes is limited. -/
lemma limitForPath_isSome (env : Environ) {path : Str}
    (h : ∃ r ∈ defaultPathLimits, r.1.isPrefixOf path = true) :
    (limitForPath env path).isSome = true := by
  obtain ⟨r, hr, hpath⟩ := h
  apply longest_isSome
  refine .inr ⟨rfl, _, List.mem_map_of_mem hr, hpath⟩

/-- What the middleware forwards: what it has read, when what was declared is within the limit in
use as well. -/
lemma invoked_iff {env : Environ} {disconnects : Bytes → Bool} {scope : Scope}
    {messages : List Message} (hkind : scope.kind = Str.ofString "http")
    (hpath : ∃ r ∈ defaultPathLimits, r.1.isPrefixOf scope.path = true)
    (hmethod : scope.method.getD (Str.ofString "GET") ≠ Str.ofString "GET") {body : Bytes} :
    (call env disconnects scope messages).invoked = some (.replayed (replayReceive body)) ↔
      ∃ e, ending messages = some e ∧ body = e.bytes ∧
        Within (limitForPath env scope.path) (declaredLength scope.headers) body.length := by
  obtain ⟨limit, hlimit⟩ := Option.isSome_iff_exists.mp (limitForPath_isSome env hpath)
  have hwithin : ∀ length, Within (limitForPath env scope.path) (declaredLength scope.headers)
      length ↔ (declaredLength scope.headers).any (limit < ·) = false ∧ length ≤ limit := by
    intro length
    rw [hlimit]
    cases declaredLength scope.headers <;> simp [Within]
  simp only [hwithin]
  have hcall : (call env disconnects scope messages).invoked =
      some (.replayed (replayReceive body)) ↔
        (declaredLength scope.headers).any (limit < ·) = false ∧
          readCapped limit messages 0 [] = .body body := by
    unfold call
    rw [hlimit]
    simp only [hkind, ne_eq, not_true_eq_false, ↓reduceIte, hmethod]
    cases (declaredLength scope.headers).any (limit < ·) with
    | true => simp
    | false =>
      simp only [Bool.false_eq_true, ↓reduceIte, true_and]
      cases readCapped limit messages 0 [] with
      | waiting => simp
      | exceeded => simp
      | body buffered =>
        simp only [Option.some.injEq, Invocation.replayed.injEq, Read.body.injEq]
        exact ⟨replayReceive_injective, fun h => h ▸ rfl⟩
  rw [hcall, readCapped_eq_body (Nat.zero_le limit)]
  constructor
  · rintro ⟨hdeclared, e, hending, hbody, hle⟩
    have hbytes : body = e.bytes := hbody
    refine ⟨e, hending, hbytes, hdeclared, ?_⟩
    rw [hbytes]
    omega
  · rintro ⟨e, hending, rfl, hdeclared, hle⟩
    exact ⟨hdeclared, e, hending, rfl, by omega⟩

/-- **When the middleware forwards exactly** the completed bodies within the configured limit: a
body that is cut short must be over the limit in use, and a completed one on the same side of both
limits.

**Proof sketch.** By how the messages end the body: the middleware forwards the bytes of any ending
that is within the limit in use. -/
theorem forwardsExactly_iff {env : Environ} {disconnects : Bytes → Bool} {scope : Scope}
    {messages : List Message} (hkind : scope.kind = Str.ofString "http")
    (hpath : ∃ r ∈ defaultPathLimits, r.1.isPrefixOf scope.path = true)
    (hmethod : scope.method.getD (Str.ofString "GET") ≠ Str.ofString "GET") :
    ForwardsExactly env disconnects scope messages ↔ Agrees env scope messages := by
  unfold ForwardsExactly Agrees
  simp only [invoked_iff hkind hpath hmethod]
  cases ending messages with
  | none => simp
  | some e =>
    cases e with
    | cut bytes => simp [Ending.bytes]
    | completed bytes =>
      simp only [Option.some.injEq, exists_eq_left', Ending.bytes, Ending.completed.injEq,
        reduceCtorEq, false_implies, implies_true, true_and, forall_eq']
      constructor
      · intro h
        have hbytes := h bytes
        simpa using hbytes
      · intro h body
        constructor
        · rintro ⟨rfl, hwithin⟩
          exact ⟨rfl, h.mp hwithin⟩
        · rintro ⟨rfl, hwithin⟩
          exact ⟨rfl, h.mpr hwithin⟩

namespace Sample

/-- An environment without overrides. -/
def plain : Environ := fun _ => none

/-- An environment with a limit of one byte for pushes. -/
def overridden : Environ := fun name =>
  if name = Str.ofString "VITRIAL_MAX_BODY_BYTES_API_V2_SYNC_PUSH" then some (Str.ofString "1")
  else none

/-- A push. -/
def scope : Scope :=
  ⟨Str.ofString "http", Str.ofString "/api/v2/sync/push", some (Str.ofString "POST"), []⟩

/-- The path of the push is limited. -/
lemma scope_limited : ∃ r ∈ defaultPathLimits, r.1.isPrefixOf scope.path = true :=
  ⟨_, List.mem_cons_of_mem _ (List.mem_cons_of_mem _ List.mem_cons_self), by decide +kernel⟩

/-- A push has a body. -/
lemma scope_method : scope.method.getD (Str.ofString "GET") ≠ Str.ofString "GET" := by
  decide +kernel

/-- A body of two bytes, in two messages. -/
def twoBytes : List Message := [.request (some [1]) true, .other, .request (some [2]) false]

/-- The first of them, and a disconnect. -/
def oneByte : List Message := [.request (some [1]) true, .disconnect]

end Sample

/-- Without overrides, a completed body is forwarded exactly. -/
theorem forwardsExactly_iff_plain :
    Sample.scope.kind = Str.ofString "http" ∧
      ForwardsExactly Sample.plain (fun _ => false) Sample.scope Sample.twoBytes := by
  refine ⟨rfl, (forwardsExactly_iff rfl Sample.scope_limited Sample.scope_method).mpr ⟨?_, ?_⟩⟩
  · intro body h
    have hending : ending Sample.twoBytes = some (.completed [1, 2]) := rfl
    rw [hending] at h
    cases h
  · intro body _
    have hsame : limitForPath Sample.plain Sample.scope.path =
        configuredLimit Sample.plain Sample.scope.path := by
      decide +kernel
    rw [hsame]

/-- A body that was cut short is forwarded as complete, and a body over the configured limit is
forwarded. -/
theorem not_forwardsExactly_sample :
    ¬ForwardsExactly Sample.plain (fun _ => false) Sample.scope Sample.oneByte ∧
      ¬ForwardsExactly Sample.overridden (fun _ => false) Sample.scope Sample.twoBytes := by
  constructor
  · intro h
    have hwithin : Within (limitForPath Sample.plain Sample.scope.path)
        (declaredLength Sample.scope.headers) 1 :=
      ⟨4194304, by decide +kernel, by simp [declaredLength, Sample.scope], by decide⟩
    have hinvoked : (call Sample.plain (fun _ => false) Sample.scope Sample.oneByte).invoked =
        some (.replayed (replayReceive [1])) :=
      (invoked_iff rfl Sample.scope_limited Sample.scope_method).mpr
        ⟨.cut [1], rfl, rfl, hwithin⟩
    obtain ⟨hending, -⟩ := (h [1]).mp hinvoked
    cases hending
  · intro h
    have hwithin : Within (limitForPath Sample.overridden Sample.scope.path)
        (declaredLength Sample.scope.headers) 2 :=
      ⟨4194304, by decide +kernel, by simp [declaredLength, Sample.scope], by decide⟩
    have hinvoked : (call Sample.overridden (fun _ => false) Sample.scope
        Sample.twoBytes).invoked = some (.replayed (replayReceive [1, 2])) :=
      (invoked_iff rfl Sample.scope_limited Sample.scope_method).mpr
        ⟨.completed [1, 2], rfl, rfl, hwithin⟩
    obtain ⟨-, most, hmost, -, hle⟩ := (h [1, 2]).mp hinvoked
    have hone : configuredLimit Sample.overridden Sample.scope.path = some 1 := by
      decide +kernel
    rw [hone] at hmost
    cases hmost
    exact absurd hle (by decide)

end VitrialSync.RequestSize
