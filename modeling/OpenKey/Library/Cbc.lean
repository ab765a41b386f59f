import Mathlib.Data.List.Basic

/-!
# Cipher block chaining

A block cipher chained over a list of blocks: each block is combined with the one encrypted before
it, and the first with an initialisation vector. `Cipher` says what a cipher and a combination owe
each other on the blocks that are well formed; then `decrypt` undoes `encrypt` under every
initialisation vector.
-/

namespace Cbc

set_option autoImplicit false

variable {α : Type} (combine : α → α → α) (enc dec : α → α)

/-- Chain the blocks forward. -/
def encrypt : α → List α → List α
  | _, [] => []
  | prev, block :: blocks =>
      enc (combine block prev) :: encrypt (enc (combine block prev)) blocks

/-- Undo the chaining. -/
def decrypt : α → List α → List α
  | _, [] => []
  | prev, block :: blocks => combine (dec block) prev :: decrypt block blocks

theorem length_encrypt (prev : α) (blocks : List α) :
    (encrypt combine enc prev blocks).length = blocks.length := by
  induction blocks generalizing prev with
  | nil => rfl
  | cons block blocks ih => rw [encrypt, List.length_cons, ih, List.length_cons]

/-- A cipher and a combination on the blocks that are well formed. -/
structure Cipher (ok : α → Prop) : Prop where
  combined : ∀ {a b}, ok a → ok b → ok (combine a b)
  cancel : ∀ {a b}, ok a → ok b → combine (combine a b) b = a
  encrypted : ∀ {a}, ok a → ok (enc a)
  inverse : ∀ {a}, ok a → dec (enc a) = a

variable {combine enc dec} {ok : α → Prop} (h : Cipher combine enc dec ok)

include h

theorem Cipher.ok_encrypt {blocks : List α} (hok : ∀ block ∈ blocks, ok block) {prev : α}
    (hprev : ok prev) : ∀ block ∈ encrypt combine enc prev blocks, ok block := by
  induction blocks generalizing prev with
  | nil =>
      intro block hmem
      cases hmem
  | cons first blocks ih =>
      have hfirst := h.encrypted (h.combined (hok first List.mem_cons_self) hprev)
      intro block hmem
      rcases List.mem_cons.mp hmem with rfl | hmem
      · exact hfirst
      · exact ih (fun b hb => hok b (List.mem_cons_of_mem _ hb)) hfirst block hmem

theorem Cipher.decrypt_encrypt {blocks : List α} (hok : ∀ block ∈ blocks, ok block) {prev : α}
    (hprev : ok prev) :
    decrypt combine dec prev (encrypt combine enc prev blocks) = blocks := by
  induction blocks generalizing prev with
  | nil => rfl
  | cons first blocks ih =>
      have hcombined := h.combined (hok first List.mem_cons_self) hprev
      rw [encrypt, decrypt, h.inverse hcombined, h.cancel (hok first List.mem_cons_self) hprev,
        ih (fun b hb => hok b (List.mem_cons_of_mem _ hb)) (h.encrypted hcombined)]

end Cbc
