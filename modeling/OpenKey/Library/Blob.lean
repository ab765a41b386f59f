import OpenKey.Library.Bytes

/-!
# Binary records

Readers that take items off the front of a byte string, each with its bounds check. `Reads` says
that a reader takes off what was written and leaves what follows; it composes the way readers do,
so that a round trip follows the layout of the record.
-/

namespace Blob

set_option autoImplicit false

variable {α β : Type}

/-- A reader of binary records. -/
abbrev Reader (α : Type) := StateT Bytes Option α

/-- The next `n` bytes. -/
def take (n : Nat) : Reader Bytes := fun bytes =>
  if n ≤ bytes.length then some (bytes.take n, bytes.drop n) else none

/-- The next byte. -/
def byte : Reader UInt8 := fun bytes =>
  match bytes with
  | b :: rest => some (b, rest)
  | [] => none

/-- A big-endian number of `w` bytes. -/
def number (w : Nat) : Reader Nat := do
  let bytes ← take w
  pure (Bytes.beNat bytes)

/-- Bytes behind their length in `w` bytes. -/
def prefixed (w : Nat) : Reader Bytes := do
  let n ← number w
  take n

/-- Continue only if `c` holds. -/
def require (c : Bool) : Reader Unit := if c then pure () else failure

/-- The same reader, `n` times. -/
def many (read : Reader α) : Nat → Reader (List α)
  | 0 => pure []
  | n + 1 => do
      let a ← read
      let as ← many read n
      pure (a :: as)

/-- The record that fills a byte string. -/
def whole (read : Reader α) (bytes : Bytes) : Option α :=
  match read bytes with
  | some (a, []) => some a
  | _ => none

/-- The value, if it is read to the end. -/
def finish (a : α) : Reader α := fun rest => if rest = [] then some (a, rest) else none

theorem whole_eq_finish (read : Reader α) (bytes : Bytes) :
    whole read bytes = ((read >>= finish) bytes).map Prod.fst := by
  show _ = Option.map Prod.fst ((read bytes).bind fun p => finish p.1 p.2)
  unfold whole
  rcases read bytes with _ | ⟨a, _ | ⟨b, rest⟩⟩ <;> rfl

/-- What is read before a failure does not matter. -/
theorem bind_failure (read : Reader α) : (read >>= fun _ => failure : Reader β) = failure :=
  funext fun bytes => Option.bind_fun_none (read bytes)

theorem failure_bind (k : α → Reader β) : ((failure : Reader α) >>= k) = failure := rfl

/-! ## Reading what was written -/

/-- `read` takes `a` off where `written` was put, and stops there. -/
def Reads (read : Reader α) (written : Bytes) (a : α) : Prop :=
  ∀ rest, read (written ++ rest) = some (a, rest)

theorem whole_of_reads {read : Reader α} {written : Bytes} {a : α} (h : Reads read written a) :
    whole read written = some a := by
  have hread := h []
  rw [List.append_nil] at hread
  rw [whole, hread]

theorem reads_pure (a : α) : Reads (pure a) [] a := fun _ => rfl

theorem reads_bind {read : Reader α} {k : α → Reader β} {w₁ w₂ : Bytes} {a : α} {b : β}
    (h₁ : Reads read w₁ a) (h₂ : Reads (k a) w₂ b) : Reads (read >>= k) (w₁ ++ w₂) b := by
  intro rest
  show ((read (w₁ ++ w₂ ++ rest)).bind fun p => k p.1 p.2) = _
  rw [List.append_assoc, h₁, Option.bind_some, h₂]

/-- Nothing was written for the last step. -/
theorem reads_bind_last {read : Reader α} {k : α → Reader β} {w : Bytes} {a : α} {b : β}
    (h₁ : Reads read w a) (h₂ : Reads (k a) [] b) : Reads (read >>= k) w b := by
  have h := reads_bind h₁ h₂
  rwa [List.append_nil] at h

theorem reads_require {c : Bool} (h : c = true) : Reads (require c) [] () := by
  intro rest
  rw [require, if_pos h]
  rfl

/-- A check in front of a reader takes nothing. -/
theorem reads_require_bind {c : Bool} {k : Unit → Reader β} {w : Bytes} {b : β} (hc : c = true)
    (h : Reads (k ()) w b) : Reads (require c >>= k) w b :=
  reads_bind (reads_require hc) h

theorem reads_take (bytes : Bytes) : Reads (take bytes.length) bytes bytes := by
  intro rest
  have hle : bytes.length ≤ (bytes ++ rest).length := by
    rw [List.length_append]
    omega
  rw [take, if_pos hle, List.take_left, List.drop_left]

theorem reads_byte (b : UInt8) : Reads byte [b] b := fun _ => rfl

theorem reads_number {w n : Nat} (h : n < 256 ^ w) : Reads (number w) (Bytes.beBytes w n) n := by
  intro rest
  have htake := reads_take (Bytes.beBytes w n) rest
  rw [Bytes.length_beBytes] at htake
  show ((take w (Bytes.beBytes w n ++ rest)).bind fun p => some (Bytes.beNat p.1, p.2)) = _
  rw [htake, Option.bind_some, Bytes.beNat_beBytes_of_lt h]

theorem reads_prefixed {w : Nat} {bytes : Bytes} (h : bytes.length < 256 ^ w) :
    Reads (prefixed w) (Bytes.beBytes w bytes.length ++ bytes) bytes :=
  reads_bind (reads_number h) (reads_take bytes)

theorem reads_many {read : Reader α} {write : α → Bytes} {as : List α}
    (h : ∀ a ∈ as, Reads read (write a) a) : Reads (many read as.length) (as.flatMap write) as := by
  induction as with
  | nil => exact reads_pure []
  | cons a as ih =>
      refine reads_bind (h a List.mem_cons_self) ?_
      exact reads_bind_last (ih fun b hb => h b (List.mem_cons_of_mem a hb)) (reads_pure (a :: as))

/-! ## Nothing but what was written -/

theorem run_bind (read : Reader α) (k : α → Reader β) (bytes : Bytes) :
    (read >>= k) bytes = (read bytes).bind fun p => k p.1 p.2 := rfl

theorem run_pure (a : α) (bytes : Bytes) : (pure a : Reader α) bytes = some (a, bytes) := rfl

theorem bind_eq_some {read : Reader α} {k : α → Reader β} {bytes rest : Bytes} {b : β}
    (h : (read >>= k) bytes = some (b, rest)) :
    ∃ a mid, read bytes = some (a, mid) ∧ k a mid = some (b, rest) := by
  obtain ⟨⟨a, mid⟩, hread, hk⟩ := Option.bind_eq_some_iff.mp h
  exact ⟨a, mid, hread, hk⟩

/-- What `read` takes off is what `write` puts there. -/
def Inverts (read : Reader α) (write : α → Bytes) : Prop :=
  ∀ bytes a rest, read bytes = some (a, rest) → bytes = write a ++ rest

theorem inverts_byte : Inverts byte fun b => [b] := by
  intro bytes b rest h
  cases bytes with
  | nil => cases h
  | cons c bytes =>
      cases h
      rfl

theorem take_eq_some {n : Nat} {bytes taken rest : Bytes} (h : take n bytes = some (taken, rest)) :
    bytes = taken ++ rest ∧ taken.length = n := by
  unfold take at h
  split at h
  · next hle =>
      cases h
      exact ⟨(List.take_append_drop n bytes).symm, List.length_take_of_le hle⟩
  · cases h

theorem inverts_number (w : Nat) : Inverts (number w) (Bytes.beBytes w) := by
  intro bytes n rest h
  obtain ⟨taken, mid, htake, hpure⟩ := bind_eq_some h
  obtain ⟨hbytes, hlen⟩ := take_eq_some htake
  cases hpure
  rw [hbytes, ← hlen, Bytes.beBytes_beNat]

theorem inverts_prefixed (w : Nat) :
    Inverts (prefixed w) fun bytes => Bytes.beBytes w bytes.length ++ bytes := by
  intro bytes taken rest h
  obtain ⟨n, mid, hnumber, htake⟩ := bind_eq_some h
  obtain ⟨hmid, hlen⟩ := take_eq_some htake
  rw [inverts_number w _ _ _ hnumber, hmid, ← hlen, List.append_assoc]

theorem many_eq_some {read : Reader α} {write : α → Bytes} (hread : Inverts read write) {n : Nat}
    {bytes rest : Bytes} {as : List α} (h : many read n bytes = some (as, rest)) :
    bytes = as.flatMap write ++ rest ∧ as.length = n := by
  induction n generalizing bytes rest as with
  | zero =>
      cases h
      exact ⟨rfl, rfl⟩
  | succ n ih =>
      obtain ⟨a, mid, ha, htail⟩ := bind_eq_some h
      obtain ⟨as, mid', has, hpure⟩ := bind_eq_some htail
      obtain ⟨hmid, hlen⟩ := ih has
      cases hpure
      rw [hread _ _ _ ha, hmid, List.flatMap_cons, List.append_assoc, List.length_cons, hlen]
      exact ⟨rfl, rfl⟩

theorem whole_bind {read : Reader α} {k : α → Reader β} {bytes rest : Bytes} {a : α}
    (h : read bytes = some (a, rest)) : whole (read >>= k) bytes = whole (k a) rest := by
  unfold whole
  rw [run_bind, h, Option.bind_some]

theorem whole_reads_bind {read : Reader α} {k : α → Reader β} {written : Bytes} {a : α}
    (h : Reads read written a) (rest : Bytes) :
    whole (read >>= k) (written ++ rest) = whole (k a) rest := whole_bind (h rest)

theorem whole_bind_none {read : Reader α} {k : α → Reader β} {bytes : Bytes}
    (h : read bytes = none) : whole (read >>= k) bytes = none := by
  unfold whole
  rw [run_bind, h, Option.bind_none]

theorem read_of_whole {read : Reader α} {bytes : Bytes} {a : α} (h : whole read bytes = some a) :
    read bytes = some (a, []) := by
  unfold whole at h
  split at h
  · next hread =>
      cases h
      exact hread
  · cases h

/-- Nothing may follow a record. -/
theorem whole_append {read : Reader α} {written extra : Bytes} {a : α} (h : Reads read written a)
    (hextra : extra ≠ []) : whole read (written ++ extra) = none := by
  unfold whole
  rw [h extra]
  cases extra with
  | nil => exact absurd rfl hextra
  | cons b extra => rfl

end Blob
