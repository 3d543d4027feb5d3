import Mathlib.Data.Fin.Basic
import Mathlib.Tactic.Lemma
import Mathlib.Tactic.Ring

set_option relaxedAutoImplicit false
set_option autoImplicit false

/-!
# Wire formats

A format writes values as bytes, one after the other, and a reader takes a value from the front of
the bytes. That a reader *reads* bytes as a value, whatever follows them, is kept by reading one
thing after another: numbers of a width, most significant byte first, texts that end with a zero,
texts of a length that is known, and sequences of a known number of items.

## Main definitions

* `Program.Wire.Reader`, `Program.Wire.Reads` — readers and what they read.
* `Program.Wire.bigEndian`, `Program.Wire.number` — numbers of a width.
* `Program.Wire.terminated` — a text up to a zero.
* `Program.Wire.octets` — a text of a length.
* `Program.Wire.repeated`, `Program.Wire.readAll` — a sequence of a length, or up to the end.

## Main results

* `Program.Wire.Reads.bind` — one thing after another.
* `Program.Wire.reads_number`, `Program.Wire.reads_terminated`, `Program.Wire.reads_octets`,
  `Program.Wire.readAll_frames` — each reader reads what it is for.
-/

namespace Program.Wire

/-- A byte. -/
abbrev Octet := Fin 256

/-- What takes a value from the front of bytes, and leaves the rest. -/
abbrev Reader (α : Type) := List Octet → Option (α × List Octet)

variable {α β : Type}

/-- The bytes are read as the value, whatever follows them. -/
def Reads (read : Reader α) (bytes : List Octet) (value : α) : Prop :=
  ∀ rest, read (bytes ++ rest) = some (value, rest)

/-- One reader after another. -/
def andThen (read : Reader α) (next : α → Reader β) : Reader β := fun bytes =>
  (read bytes).bind fun result => next result.1 result.2

/-- The value that is read, without reading on. -/
def result (value : α) : Reader α := fun bytes => some (value, bytes)

/-- Nothing is read. -/
lemma reads_result (value : α) : Reads (result value) [] value := fun _ => rfl

/-- **One thing after another.** -/
theorem Reads.bind {read : Reader α} {next : α → Reader β} {bytes more : List Octet} {a : α} {b : β}
    (h : Reads read bytes a) (hnext : Reads (next a) more b) :
    Reads (andThen read next) (bytes ++ more) b := by
  intro rest
  rw [andThen, List.append_assoc, h (more ++ rest), Option.bind_some]
  exact hnext rest

/-- Reading on without further bytes. -/
lemma Reads.last {read : Reader α} {next : α → Reader β} {bytes : List Octet} {a : α} {b : β}
    (h : Reads read bytes a) (hnext : Reads (next a) [] b) : Reads (andThen read next) bytes b := by
  have := h.bind hnext
  rwa [List.append_nil] at this

/-- All the bytes are read. -/
lemma Reads.all {read : Reader α} {bytes : List Octet} {a : α} (h : Reads read bytes a) :
    read bytes = some (a, []) := by
  have := h []
  rwa [List.append_nil] at this

/-! ### Numbers -/

/-- A number in a width of bytes, the most significant one first; of a larger number the lowest
bytes. -/
def bigEndian : ℕ → ℕ → List Octet
  | 0, _ => []
  | width + 1, n => bigEndian width (n / 256) ++ [Fin.ofNat 256 n]

/-- The number that bytes write. -/
def ofBytes (bytes : List Octet) : ℕ := bytes.foldl (fun acc b => 256 * acc + b.val) 0

/-- A number of a width. -/
def number (width : ℕ) : Reader ℕ := fun bytes =>
  if width ≤ bytes.length then some (ofBytes (bytes.take width), bytes.drop width) else none

/-- A number takes its width. -/
@[simp]
lemma length_bigEndian (width n : ℕ) : (bigEndian width n).length = width := by
  induction width generalizing n with
  | zero => rfl
  | succ width ih => rw [bigEndian, List.length_append, ih, List.length_singleton]

/-- The last byte has the lowest value. -/
lemma ofBytes_concat (bytes : List Octet) (b : Octet) :
    ofBytes (bytes ++ [b]) = 256 * ofBytes bytes + b.val := by
  rw [ofBytes, List.foldl_append]
  rfl

/-- What is written is the number up to its width. -/
lemma ofBytes_bigEndian (width n : ℕ) : ofBytes (bigEndian width n) = n % 256 ^ width := by
  induction width generalizing n with
  | zero => rw [pow_zero, Nat.mod_one]; rfl
  | succ width ih =>
    rw [bigEndian, ofBytes_concat, ih, pow_succ, mul_comm (256 ^ width) 256, Nat.mod_mul]
    exact Nat.add_comm _ _

/-- **Numbers are read.** -/
theorem reads_number {width n : ℕ} (h : n < 256 ^ width) :
    Reads (number width) (bigEndian width n) n := by
  intro rest
  have hlength := length_bigEndian width n
  rw [number, if_pos (by rw [List.length_append, hlength]; omega), List.take_left' hlength,
    List.drop_left' hlength, ofBytes_bigEndian, Nat.mod_eq_of_lt h]

/-! ### Texts -/

/-- A text up to a zero. -/
def terminated : Reader (List Octet)
  | [] => none
  | b :: bytes => if b = 0 then some ([], bytes)
    else (terminated bytes).map fun result => (b :: result.1, result.2)

/-- **A text without a zero is read up to its end.** -/
theorem reads_terminated {text : List Octet} (h : 0 ∉ text) :
    Reads terminated (text ++ [0]) text := by
  intro rest
  induction text with
  | nil => rfl
  | cons b text ih =>
    rw [List.mem_cons, not_or] at h
    rw [List.cons_append, List.cons_append, terminated, if_neg (Ne.symm h.1), ih h.2,
      Option.map_some]

/-- A text of a length. -/
def octets (length : ℕ) : Reader (List Octet) := fun bytes =>
  if length ≤ bytes.length then some (bytes.take length, bytes.drop length) else none

/-- **A text is read by its length.** -/
theorem reads_octets (text : List Octet) : Reads (octets text.length) text text := by
  intro rest
  rw [octets, if_pos (by rw [List.length_append]; omega), List.take_left, List.drop_left]

/-! ### Sequences -/

/-- A number of items. -/
def repeated (read : Reader α) : ℕ → Reader (List α)
  | 0 => result []
  | n + 1 => andThen read fun value => andThen (repeated read n) fun values =>
      result (value :: values)

/-- Items up to the end of the bytes, at most so many. -/
def readAll (read : Reader α) : ℕ → List Octet → Option (List α)
  | _, [] => some []
  | 0, _ :: _ => none
  | n + 1, bytes => (read bytes).bind fun result =>
      (readAll read n result.2).map fun values => result.1 :: values

/-- **Frames are read up to the end.** -/
theorem readAll_frames {read : Reader α} (frames : List (List Octet × α))
    (h : ∀ frame ∈ frames, Reads read frame.1 frame.2 ∧ frame.1 ≠ []) {n : ℕ}
    (hn : frames.length ≤ n) :
    readAll read n (frames.flatMap Prod.fst) = some (frames.map Prod.snd) := by
  induction frames generalizing n with
  | nil => cases n <;> rfl
  | cons frame frames ih =>
    rw [List.forall_mem_cons] at h
    rw [List.length_cons] at hn
    obtain ⟨n, rfl⟩ : ∃ k, n = k + 1 := ⟨n - 1, by omega⟩
    rw [List.flatMap_cons]
    cases hbytes : frame.1 ++ frames.flatMap Prod.fst with
    | nil => exact absurd (List.append_eq_nil_iff.mp hbytes).1 h.1.2
    | cons b bytes =>
      rw [readAll, ← hbytes, h.1.1, Option.bind_some, ih h.2 (by omega), Option.map_some,
        List.map_cons]
      simp

end Program.Wire
