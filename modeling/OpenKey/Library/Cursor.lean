import OpenKey.Library.Blob
import OpenKey.Library.Checked
import OpenKey.Library.Script

/-!
# Readers with a position

A `Reading` takes bytes from a position of a byte string, as a script, so that it has two meanings.

* `Cursor.answer` moves an index: the sum of the position and the length is checked against the
  range of a word, then against the length of the bytes, and then the slice is taken, which panics
  outside its bounds.
* `Reading.front` takes the bytes off the front of what is left, as a `Blob.Reader`.

The two agree (`parse_eq_front`). A reading that indexes only bytes it has taken (`Careful`) never
panics (`parse_careful`).
-/

set_option autoImplicit false

/-- What a reading asks for. -/
inductive CursorOp
  | take (n : Nat)
  | atEnd

/-- The answers: the bytes that are taken, and whether none is left. -/
def CursorOp.Answer : CursorOp → Type
  | .take _ => Bytes
  | .atEnd => Bool

/-- Why a reading ends without a value: the bytes are rejected, or it panics. -/
inductive Stop
  | rejected
  | panic (p : Panic)

/-- A reader over a byte string with a position. -/
abbrev Reading (α : Type) := Script CursorOp CursorOp.Answer Stop α

namespace Reading

variable {α β : Type}

/-- The next `n` bytes. -/
def take (n : Nat) : Reading Bytes := Script.call (CursorOp.take n)

/-- Whether no byte is left. -/
def atEnd : Reading Bool := Script.call CursorOp.atEnd

def reject : Reading α := .fail .rejected

/-- The value, or the bytes are rejected. -/
def orReject (value : Option α) : Reading α := value.elim reject pure

/-- `bytes[i]`. -/
def index (bytes : Bytes) (i : Nat) : Reading UInt8 :=
  match bytes[i]? with
  | some b => pure b
  | none => .fail (.panic .outOfRange)

/-- The next byte. -/
def byte : Reading UInt8 := do
  let bytes ← take 1
  index bytes 0

/-- The next two bytes as a big-endian number. -/
def number2 : Reading Nat := do
  let bytes ← take 2
  let hi ← index bytes 0
  let lo ← index bytes 1
  pure (Bytes.beNat [hi, lo])

/-- Bytes behind their length in one byte. -/
def prefixed : Reading Bytes := do
  let n ← byte
  take n.toNat

/-- The same reading, `n` times. -/
def many (reading : Reading α) : Nat → Reading (List α)
  | 0 => pure []
  | n + 1 => do
      let a ← reading
      let as ← many reading n
      pure (a :: as)

/-- The value, if no byte is left. -/
def ending (a : α) : Reading α := do
  let done ← atEnd
  if done then pure a else reject

/-- What is behind the byte `version`. -/
def versioned (version : UInt8) (body : Reading α) : Reading α := do
  let b ← byte
  if b = version then body else reject

end Reading

/-! ## At a position -/

/-- A byte string with a position. -/
structure Cursor where
  data : Bytes
  pos : Nat

namespace Cursor

variable {α : Type} (range : Nat)

/-- `checked_add`, where words have `range` values. -/
def advanced (c : Cursor) (n : Nat) : Except Stop Nat :=
  if c.pos + n < range then .ok (c.pos + n) else .error .rejected

/-- The bytes up to `stop`, or nothing if there are not so many. -/
def window (c : Cursor) (stop : Nat) : Except Stop Bytes :=
  if stop > c.data.length then .error .rejected
  else (Checked.slice c.data c.pos stop).mapError .panic

/-- The next `n` bytes. -/
def take (n : Nat) : Prog Cursor Stop Bytes := do
  let stop ← Prog.check fun c => c.advanced range n
  let bytes ← Prog.check fun c => c.window stop
  Prog.update fun c => { c with pos := stop }
  pure bytes

/-- The operations with an index into the bytes. -/
def answer : (op : CursorOp) → Prog Cursor Stop op.Answer
  | .take n => take range n
  | .atEnd => Prog.read fun c => decide (c.pos = c.data.length)

/-- A record that is read from its first byte on. -/
def parse (reading : Reading α) (data : Bytes) : Except Panic (Option α) :=
  match ((reading.perform (answer range)).run ⟨data, 0⟩).1 with
  | .ok a => .ok (some a)
  | .error .rejected => .ok none
  | .error (.panic p) => .error p

end Cursor

/-! ## Off the front -/

namespace Reading

variable {α β : Type}

/-- The same reading off the front of the bytes. -/
def front : Reading α → Blob.Reader α
  | .done a => pure a
  | .fail _ => failure
  | .ask (.take n) next => do
      let bytes ← Blob.take n
      front (next bytes)
  | .ask .atEnd next => fun rest => front (next (decide (rest = []))) rest

theorem front_bind (m : Reading α) (f : α → Reading β) :
    front (m >>= f) = front m >>= fun a => front (f a) := by
  induction m with
  | done a => rfl
  | fail stop => rfl
  | ask op next ih =>
      cases op with
      | take n =>
          funext rest
          show ((Blob.take n rest).bind fun p => front (next p.1 >>= f) p.2) =
            ((Blob.take n rest).bind fun p => front (next p.1) p.2).bind fun p => front (f p.1) p.2
          rw [Option.bind_assoc]
          exact congrArg _ (funext fun p => congrFun (ih p.1) p.2)
      | atEnd =>
          funext rest
          exact congrFun (ih (decide (rest = []))) rest

theorem front_take (n : Nat) : front (take n) = Blob.take n := by
  funext rest
  show (Blob.take n rest).bind some = _
  exact Option.bind_fun_some _

theorem front_byte : front byte = Blob.byte := by
  rw [byte, front_bind, front_take]
  funext rest
  cases rest <;> rfl

theorem front_number2 : front number2 = Blob.number 2 := by
  rw [number2, front_bind, front_take]
  funext rest
  rcases rest with _ | ⟨hi, _ | ⟨lo, rest⟩⟩ <;> rfl

theorem front_prefixed : front prefixed = Blob.prefixed 1 := by
  have hlength : Blob.number 1 = Blob.byte >>= fun b => pure b.toNat := by
    funext rest
    cases rest with
    | nil => rfl
    | cons b rest =>
        show some (Bytes.beNat [b], rest) = some (b.toNat, rest)
        rw [Bytes.beNat, List.reverse_singleton, Bytes.leNat, Bytes.leNat]
        rfl
  rw [prefixed, front_bind, front_byte, Blob.prefixed, hlength]
  simp only [bind_assoc, pure_bind, front_take]

theorem front_many (reading : Reading α) (n : Nat) :
    front (many reading n) = Blob.many (front reading) n := by
  induction n with
  | zero => rfl
  | succ n ih =>
      simp only [many, Blob.many, front_bind, ih]
      rfl

theorem front_ending (a : α) : front (ending a) = Blob.finish a := by
  funext rest
  show front (if decide (rest = []) then pure a else reject) rest = _
  unfold Blob.finish
  by_cases hend : rest = []
  · rw [if_pos (decide_eq_true hend), if_pos hend]
    rfl
  · rw [if_neg (by simpa using hend), if_neg hend]
    rfl

theorem front_versioned (version : UInt8) (body : Reading α) (rest : Bytes) :
    front (versioned version body) (version :: rest) = front body rest := by
  rw [versioned, front_bind, front_byte]
  show front (if version = version then body else reject) rest = _
  rw [if_pos rfl]

/-! ## No panic -/

/-- The reading indexes only bytes it has taken: whatever they are, it does not panic. -/
def Careful : Reading α → Prop
  | .done _ => True
  | .fail stop => stop = .rejected
  | .ask (.take n) next => ∀ bytes : Bytes, bytes.length = n → Careful (next bytes)
  | .ask .atEnd next => ∀ b : Bool, Careful (next b)

theorem careful_pure (a : α) : Careful (pure a : Reading α) := trivial

theorem careful_reject : Careful (reject : Reading α) := rfl

theorem careful_orReject (value : Option α) : Careful (orReject value) := by
  cases value <;> trivial

theorem Careful.bind {m : Reading α} {f : α → Reading β} (hm : Careful m)
    (hf : ∀ a, Careful (f a)) : Careful (m >>= f) := by
  induction m with
  | done a => exact hf a
  | fail stop => exact hm
  | ask op next ih =>
      cases op with
      | take n => exact fun bytes hlen => ih bytes (hm bytes hlen)
      | atEnd => exact fun b => ih b (hm b)

theorem careful_take (n : Nat) : Careful (take n) := fun _ _ => trivial

theorem careful_atEnd : Careful atEnd := fun _ => trivial

theorem careful_byte : Careful byte
  | [_], _ => trivial

theorem careful_number2 : Careful number2
  | [_, _], _ => trivial

theorem careful_prefixed : Careful prefixed := careful_byte.bind fun n => careful_take n.toNat

theorem careful_many {reading : Reading α} (h : Careful reading) (n : Nat) :
    Careful (many reading n) := by
  induction n with
  | zero => exact trivial
  | succ n ih => exact h.bind fun a => ih.bind fun as => careful_pure (a :: as)

theorem careful_ending (a : α) : Careful (ending a) := by
  refine careful_atEnd.bind fun done => ?_
  split
  · exact careful_pure a
  · exact careful_reject

theorem careful_versioned (version : UInt8) {body : Reading α} (h : Careful body) :
    Careful (versioned version body) := by
  refine careful_byte.bind fun b => ?_
  split
  · exact h
  · exact careful_reject

end Reading

namespace Cursor

variable {α : Type} {range : Nat}

/-- Bytes are taken from where the position is, or rejected; there are too few then, unless the
bytes have more positions than words have values. -/
theorem take_cases (c : Cursor) (n : Nat) :
    (c.pos + n ≤ c.data.length ∧ (take range n).run c =
      (.ok ((c.data.drop c.pos).take n), { c with pos := c.pos + n })) ∨
    (range ≤ c.data.length ∨ c.data.length < c.pos + n) ∧
      (take range n).run c = (.error .rejected, c) := by
  unfold take
  by_cases hroom : c.pos + n < range
  · have hadvanced : c.advanced range n = .ok (c.pos + n) := if_pos hroom
    rw [Prog.run_check_bind (f := fun c : Cursor => c.advanced range n) hadvanced]
    by_cases hfits : c.data.length < c.pos + n
    · exact .inr ⟨.inr hfits, Prog.run_check_bind_error (if_pos hfits)⟩
    · refine .inl ⟨by omega, ?_⟩
      have hwindow : c.window (c.pos + n) = .ok ((c.data.drop c.pos).take n) := by
        unfold window
        rw [if_neg hfits, Checked.slice_ok (by omega) (by omega), Nat.add_sub_cancel_left]
        rfl
      rw [Prog.run_check_bind (f := fun c : Cursor => c.window _) hwindow]
      rfl
  · refine .inr ⟨?_, Prog.run_check_bind_error (if_neg hroom)⟩
    omega

variable (range) in
/-- A careful reading does not panic, wherever in the bytes it starts. -/
theorem run_careful {reading : Reading α} (h : reading.Careful) {c : Cursor}
    (hc : c.pos ≤ c.data.length) (p : Panic) :
    ((reading.perform (answer range)).run c).1 ≠ .error (.panic p) := by
  induction reading generalizing c with
  | done a => exact fun h => nomatch h
  | fail stop =>
      obtain rfl : stop = .rejected := h
      exact fun h => nomatch h
  | ask op next ih =>
      cases op with
      | take n =>
          have hstep : ((Script.ask (CursorOp.take n) next).perform (answer range)).run c =
              (take range n >>= fun bytes => (next bytes).perform (answer range)).run c := rfl
          rw [hstep]
          obtain ⟨hfits, hrun⟩ | ⟨-, hrun⟩ := take_cases c n
          · rw [Prog.run_bind_of_ok hrun]
            refine ih _ (h _ ?_) hfits
            rw [List.length_take, List.length_drop]
            omega
          · rw [Prog.run_bind_of_error hrun]
            exact fun h => nomatch h
      | atEnd => exact ih _ (h _) hc

/-- Where the positions are words, a careful reading finds what there is off the front. -/
theorem run_eq_front {reading : Reading α} (h : reading.Careful) {c : Cursor}
    (hc : c.pos ≤ c.data.length) (hrange : c.data.length < range) :
    ((reading.perform (answer range)).run c).1 =
      match reading.front (c.data.drop c.pos) with
      | some (a, _) => .ok a
      | none => .error .rejected := by
  induction reading generalizing c with
  | done a => rfl
  | fail stop =>
      obtain rfl : stop = .rejected := h
      rfl
  | ask op next ih =>
      cases op with
      | take n =>
          have hstep : ((Script.ask (CursorOp.take n) next).perform (answer range)).run c =
              (take range n >>= fun bytes => (next bytes).perform (answer range)).run c := rfl
          have hfront : Reading.front (Script.ask (CursorOp.take n) next) (c.data.drop c.pos) =
              (Blob.take n (c.data.drop c.pos)).bind fun p => Reading.front (next p.1) p.2 := rfl
          rw [hstep, hfront, Blob.take, List.length_drop]
          obtain ⟨hfits, hrun⟩ | ⟨hshort, hrun⟩ := take_cases c n
          · rw [Prog.run_bind_of_ok hrun, if_pos (by omega), Option.bind_some, List.drop_drop]
            refine ih _ (h _ ?_) hfits hrange
            rw [List.length_take, List.length_drop]
            omega
          · rw [Prog.run_bind_of_error hrun, if_neg (by omega)]
            rfl
      | atEnd =>
          have hnil : decide (c.data.drop c.pos = []) = decide (c.pos = c.data.length) := by
            refine decide_eq_decide.mpr ?_
            rw [List.drop_eq_nil_iff]
            omega
          have hfront : Reading.front (Script.ask CursorOp.atEnd next) (c.data.drop c.pos) =
              Reading.front (next (decide (c.data.drop c.pos = []))) (c.data.drop c.pos) := rfl
          rw [hfront, hnil]
          exact ih _ (h _) hc hrange

/-- A careful record never panics. -/
theorem parse_careful {reading : Reading α} (h : reading.Careful) (data : Bytes) :
    ∃ result, parse range reading data = .ok result := by
  have hrun := run_careful range h (c := ⟨data, 0⟩) (Nat.zero_le _)
  unfold parse
  generalize ((reading.perform (answer range)).run ⟨data, 0⟩).1 = result at hrun
  rcases result with (_ | p) | a
  · exact ⟨none, rfl⟩
  · exact absurd rfl (hrun p)
  · exact ⟨some a, rfl⟩

theorem parse_eq_front {reading : Reading α} (h : reading.Careful) {data : Bytes}
    (hrange : data.length < range) :
    parse range reading data = .ok ((reading.front data).map Prod.fst) := by
  have hrun := run_eq_front h (c := ⟨data, 0⟩) (Nat.zero_le _) hrange
  unfold parse
  rw [hrun, List.drop_zero]
  cases reading.front data <;> rfl

/-- A careful record behind its version is the record that fills what follows the version. -/
theorem parse_versioned {reading : Reading α} (h : reading.Careful) (version : UInt8)
    {body : Bytes} (hrange : (version :: body).length < range) :
    parse range (Reading.versioned version (reading >>= Reading.ending)) (version :: body) =
      .ok (Blob.whole reading.front body) := by
  have hcareful := Reading.careful_versioned version (h.bind Reading.careful_ending)
  rw [parse_eq_front hcareful hrange, Reading.front_versioned, Reading.front_bind,
    Blob.whole_eq_finish]
  simp only [Reading.front_ending]

end Cursor
