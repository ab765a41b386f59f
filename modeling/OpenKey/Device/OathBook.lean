import OpenKey.Device.AppletUses
import OpenKey.Device.OathCounters
import Mathlib.Data.List.Sort
import Mathlib.Logic.Function.Basic

/-!
# The OATH applet as its host sees it

A host that has seen everything that went to the applet and came back can keep a book of the
credentials, with their counters, and knows the access code. There is no storage in it, no cipher,
and nothing that is not in the requests and the answers.

**Transcripts (`oath_transcript`).** Over a storage that does not fail, the book explains every
answer of the applet in every sequence of commands, SELECTs and reboots: `Explains` has one case for
each kind of answer, and says what the host then knows.

**The plan.** `Shows` relates a cell to what is known of it, and `Foretold` a run of a command to
what the book says of it. Each command has one lemma that goes along its checks, in their order.
-/

namespace OpenKey

open Std
open Command

set_option autoImplicit false

namespace Oath

/-! ## What a host knows -/

/-- The credentials by name. -/
abbrev Book := Bytes → Option OathCredential

/-- The name of the one comes before the name of the other. -/
def Before (a b : Bytes × OathCredential) : Prop := compare a.1 b.1 = .lt

instance : Std.Irrefl Before where
  irrefl a h := by
    rw [Before, compare_self] at h
    cases h

instance : Std.Antisymm Before where
  antisymm a b hab hba := by
    have hswap : compare b.1 a.1 = (compare a.1 b.1).swap := OrientedCmp.eq_swap
    rw [Before, hswap, hab] at hba
    cases hba

/-- The entries of a book, in the order of their names. -/
structure Lists (book : Book) (entries : List (Bytes × OathCredential)) : Prop where
  ordered : entries.Pairwise Before
  exact : ∀ name cred, (name, cred) ∈ entries ↔ book name = some cred

end Oath

/-- What a host knows of the OATH applet. -/
structure OathView where
  book : Oath.Book
  access : Option OathAccess
  /-- The challenge that a VALIDATE has to answer, if it was shown. -/
  challenge : Option Bytes
  validated : Bool
  /-- The last response, with how much of it was handed out. -/
  remaining : Option (Bytes × Nat)

namespace OathView

open Oath

/-- Of an applet that was reset. -/
def empty : OathView := ⟨fun _ => none, none, none, false, none⟩

/-- Of an applet that is built around a state. -/
def ofState (state : OathState) : OathView :=
  ⟨fun name => state.credentials.map[name]?, state.access, none, false, none⟩

/-! ## Answers -/

/-- A short form. -/
def shortForm (tag : UInt8) (value : Bytes) : Bytes :=
  tag :: UInt8.ofNat value.length :: value

/-- The entry of LIST: type and algorithm, then the name. -/
def listEntry (entry : Bytes × OathCredential) : Bytes :=
  shortForm 0x72 (entry.2.wire :: entry.1)

/-- The four bytes of a digest from the offset that its last byte gives. -/
def truncation (digest : Bytes) : Bytes :=
  (digest.drop (digest.getLastD 0 &&& 0x0F).toNat).take 4

/-- A code: the number of digits, then the digest or its truncation. -/
def code (truncated : Bool) (digits : UInt8) (digest : Bytes) : Bytes :=
  if truncated then shortForm 0x76 (digits :: truncation digest)
  else shortForm 0x75 (digits :: digest)

/-- The entry of CALCULATE ALL: the name, then a code, or why there is none. -/
def allEntry (crypto : AppletCrypto) (truncated : Bool) (challenge : Bytes)
    (entry : Bytes × OathCredential) : Bytes :=
  shortForm 0x71 entry.1 ++ match entry.2.oathType with
    | .hotp => shortForm 0x77 []
    | .totp =>
        if entry.2.touchRequired then shortForm 0x7C []
        else code truncated entry.2.digits
          (hmacByAlgorithm crypto entry.2.algorithm entry.2.secret challenge)

/-- The answer to SELECT. -/
def selectAnswer (salt : Bytes) : Option (OathAccess × Bytes) → Bytes
  | none => shortForm 0x79 [0x03, 0x04, 0x00] ++ shortForm 0x71 salt
  | some (access, challenge) => shortForm 0x79 [0x03, 0x04, 0x00] ++ shortForm 0x71 salt ++
      shortForm 0x74 challenge ++ shortForm 0x7B [access.algorithm.wireByte]

/-! ## Requests -/

section

variable (crypto : AppletCrypto) (v : OathView) (entries : List (Bytes × OathCredential))

/-- The book with another entry, or without one. -/
def write (name : Bytes) (cred : Option OathCredential) : OathView :=
  { v with book := Function.update v.book name cred }

/-- PUT: a new name needs room. -/
def put (data : Bytes) : Except UInt16 (Bytes × OathView) := do
  let req ← parsePut data
  if (v.book req.name).isSome ∨ entries.length < 32 then
    pure ([], v.write req.name (some req.cred))
  else throw swNoSpace

/-- DELETE. -/
def delete (data : Bytes) : Except UInt16 (Bytes × OathView) := do
  let name ← parseDelete data
  if (v.book name).isSome then pure ([], v.write name none) else throw swNoSuchObject

/-- RENAME, to a name that is free. -/
def rename (data : Bytes) : Except UInt16 (Bytes × OathView) := do
  let names ← parseRename data
  match v.book names.1 with
  | none => throw swNoSuchObject
  | some cred =>
      if (v.book names.2.1).isSome then throw swNoSpace
      else pure ([], (v.write names.1 none).write names.2.1 (some cred))

/-- SET CODE: without a key it takes the access code away. -/
def setCode (data : Bytes) : Except UInt16 (Bytes × OathView) := do
  let tlvs ← parseTlvs data
  let keyed ← needTag tlvs 0x73
  if keyed.1 = [] then do
    requireNoRemainingTlvs keyed.2
    pure ([], { v with access := none, challenge := none, validated := false })
  else do
    let access ← parseSetCode crypto keyed.2 keyed.1
    pure ([], { v with access := some access, challenge := none })

/-- RESET. -/
def reset (p1 p2 : UInt8) : Except UInt16 (Bytes × OathView) :=
  if p1 = 0xDE ∧ p2 = 0xAD then .ok ([], empty) else .error swWrongSyntax

/-- The book after a code: the counter of a HOTP credential has moved on. -/
def counted (name : Bytes) (cred : OathCredential) : Option UInt64 → OathView
  | none => v
  | some next => v.write name (some { cred with hotpCounter := next })

/-- CALCULATE. -/
def calculate (p2 : UInt8) (data : Bytes) : Except UInt16 (Bytes × OathView) := do
  let asked ← parseCalculate p2 data
  match v.book asked.1 with
  | none => throw swNoSuchObject
  | some cred => do
      let factor ← movingFactor cred asked.2
      pure (code (p2 = 0x01) cred.digits
        (hmacByAlgorithm crypto cred.algorithm cred.secret factor.1),
        v.counted asked.1 cred factor.2)

/-- CALCULATE ALL. -/
def calculateAll (p2 : UInt8) (data : Bytes) : Except UInt16 (Bytes × OathView) := do
  let challenge ← parseCalculateAll p2 data
  pure (entries.flatMap (allEntry crypto (p2 = 0x01) challenge), v)

/-- What needs the access code, where one is set. -/
def gated (result : Except UInt16 (Bytes × OathView)) : Except UInt16 (Bytes × OathView) :=
  if v.access.isSome && !v.validated then .error swSecurityStatus else result

/-- The answer to a request other than VALIDATE and SEND REMAINING, and what is known after it. -/
def serve (apdu : Apdu) : Except UInt16 (Bytes × OathView) :=
  if apdu.ins = insPut then v.gated (v.put entries apdu.data)
  else if apdu.ins = insDelete then v.gated (v.delete apdu.data)
  else if apdu.ins = insSetCode then v.gated (v.setCode crypto apdu.data)
  else if apdu.ins = insReset then reset apdu.p1 apdu.p2
  else if apdu.ins = insRename then v.gated (v.rename apdu.data)
  else if apdu.ins = insList then v.gated (.ok (entries.flatMap listEntry, v))
  else if apdu.ins = insCalculate then v.gated (v.calculate crypto apdu.p2 apdu.data)
  else if apdu.ins = insCalculateAll then
    v.gated (v.calculateAll crypto entries apdu.p2 apdu.data)
  else .error swInsNotSupported

/-- SEND REMAINING: the next piece of the last response. -/
def fetch (le : Option Nat) : Except UInt16 (ResponseData × OathView) :=
  if v.access.isSome && !v.validated then .error swSecurityStatus
  else
    match v.remaining with
    | none => .error swConditionsNotSatisfied
    | some (buffer, pos) =>
        let stop := min (pos + min (le.getD 255) 255) buffer.length
        if stop < buffer.length then
          .ok (.withSw ((buffer.drop pos).take (stop - pos)) (swMoreData (buffer.length - stop)),
            { v with remaining := some (buffer, stop) })
        else .ok (.ok (buffer.drop pos), { v with remaining := none })

end

end OathView

namespace Oath

/-! ## Transcripts -/

/-- What VALIDATE may come to: the response to the challenge that was shown, and no other, opens
the session, and the challenge of the host is answered. -/
inductive Validates (crypto : AppletCrypto) (v : OathView) (data : Bytes) :
    Except UInt16 (Bytes × OathView) → Prop
  | granted {access : OathAccess} {response : Bytes} {challenge : { c : Bytes // ChallengeOk c }}
      (haccess : v.access = some access)
      (hparse : parseValidate data = .ok (response, challenge))
      (hresponse : ∀ pending ∈ v.challenge,
        hmacByAlgorithm crypto access.algorithm access.key pending = response) :
      Validates crypto v data (.ok
        (OathView.shortForm 0x75
          (hmacByAlgorithm crypto access.algorithm access.key challenge.1),
        { v with challenge := some challenge.1, validated := true }))
  | denied {sw : UInt16}
      (hwrong : ∀ access pending response challenge, v.access = some access →
        v.challenge = some pending → parseValidate data = .ok (response, challenge) →
        hmacByAlgorithm crypto access.algorithm access.key pending ≠ response) :
      Validates crypto v data (.error sw)

/-- What a request to the applet comes to, other than SEND REMAINING. -/
inductive Dispatches (crypto : AppletCrypto) (v : OathView) (apdu : Apdu) :
    Except UInt16 (Bytes × OathView) → Prop
  | validate {result : Except UInt16 (Bytes × OathView)} (hins : apdu.ins = insValidate)
      (h : Validates crypto v apdu.data result) : Dispatches crypto v apdu result
  | other {entries : List (Bytes × OathCredential)} (hins : apdu.ins ≠ insValidate)
      (hlists : Lists v.book entries) : Dispatches crypto v apdu (v.serve crypto entries apdu)

/-- What a host that knows `v` may see, and what it then knows. -/
inductive Explains (crypto : AppletCrypto) :
    OathView → AppletUse × Except Fault ResponseData → OathView → Prop
  | foreign {v : OathView} {apdu : Apdu} (hcla : apdu.cla ≠ 0) :
      Explains crypto v (.command apdu, .error (.status swClassNotSupported)) v
  | fetched {v w : OathView} {apdu : Apdu} {response : ResponseData} (hcla : apdu.cla = 0)
      (hins : apdu.ins = insSendRemaining) (h : v.fetch apdu.le = .ok (response, w)) :
      Explains crypto v (.command apdu, .ok response) w
  | unfetched {v : OathView} {apdu : Apdu} {sw : UInt16} (hcla : apdu.cla = 0)
      (hins : apdu.ins = insSendRemaining) (h : v.fetch apdu.le = .error sw) :
      Explains crypto v (.command apdu, .error (.status sw)) v
  | answered {v w : OathView} {apdu : Apdu} {data : Bytes} (hcla : apdu.cla = 0)
      (hins : apdu.ins ≠ insSendRemaining) (h : Dispatches crypto v apdu (.ok (data, w))) :
      Explains crypto v (.command apdu, .ok (.ok data))
        { w with remaining := mirror apdu (.ok data) }
  | refused {v : OathView} {apdu : Apdu} {sw : UInt16} (hcla : apdu.cla = 0)
      (hins : apdu.ins ≠ insSendRemaining) (h : Dispatches crypto v apdu (.error sw)) :
      Explains crypto v (.command apdu, .error (.status sw)) { v with remaining := none }
  | selected {v : OathView} {salt : Bytes} (haccess : v.access = none) :
      Explains crypto v (.select, .ok (.ok (OathView.selectAnswer salt none)))
        { v with validated := false }
  | challenged {v : OathView} {salt challenge : Bytes} {access : OathAccess}
      (haccess : v.access = some access) (hlen : challenge.length = 8) :
      Explains crypto v (.select, .ok (.ok (OathView.selectAnswer salt (some (access, challenge)))))
        { v with challenge := some challenge, validated := false }
  | rebooted {v : OathView} {rng : Nat → Entropy} :
      Explains crypto v (.reboot rng, .ok (.ok [])) { v with validated := false, remaining := none }

section

variable {crypto : AppletCrypto} {v : OathView}

/-- A book has one list of its entries. -/
theorem Lists.unique {book : Book} {entries more : List (Bytes × OathCredential)}
    (h : Lists book entries) (h' : Lists book more) : entries = more :=
  h.ordered.eq_of_mem_iff h'.ordered fun entry =>
    (h.exact entry.1 entry.2).trans (h'.exact entry.1 entry.2).symm

/-- What a request came to decides what is then known. -/
theorem Dispatches.unique {apdu : Apdu} {data : Bytes} {w w' : OathView}
    (h : Dispatches crypto v apdu (.ok (data, w)))
    (h' : Dispatches crypto v apdu (.ok (data, w'))) :
    w = w' := by
  generalize hresult : (Except.ok (data, w) : Except UInt16 (Bytes × OathView)) = result at h
  generalize hresult' : (Except.ok (data, w') : Except UInt16 (Bytes × OathView)) = result' at h'
  cases h with
  | validate hins h =>
    cases h' with
    | other hins' => exact absurd hins hins'
    | validate _ h' =>
      cases h with
      | denied => cases hresult
      | granted _ hparse =>
        cases h' with
        | denied => cases hresult'
        | granted _ hparse' =>
          rw [(Prod.mk.inj (Except.ok.inj hresult)).2, (Prod.mk.inj (Except.ok.inj hresult')).2]
          cases hparse.symm.trans hparse'
          rfl
  | other hins hlists =>
    cases h' with
    | validate hins' => exact absurd hins' hins
    | other _ hlists' =>
      obtain rfl := hlists.unique hlists'
      cases hresult.trans hresult'.symm
      rfl

/-- A challenge of eight bytes is read off the answer to SELECT. -/
theorem selectAnswer_inj {salt salt' challenge challenge' : Bytes} {access : OathAccess}
    (hlen : challenge.length = 8) (hlen' : challenge'.length = 8)
    (h : OathView.selectAnswer salt (some (access, challenge)) =
      OathView.selectAnswer salt' (some (access, challenge'))) : challenge = challenge' := by
  unfold OathView.selectAnswer at h
  have hfront := List.append_inj_left' h rfl
  have hlast := List.append_inj_right' hfront (by simp [OathView.shortForm, hlen, hlen'])
  simp only [OathView.shortForm, List.cons.injEq] at hlast
  exact hlast.2.2

/-- What is seen decides what is then known. -/
theorem Explains.unique {x : AppletUse × Except Fault ResponseData} {w w' : OathView}
    (h : Explains crypto v x w) (h' : Explains crypto v x w') : w = w' := by
  cases h with
  | foreign hcla =>
    cases h' with
    | foreign _ => rfl
    | unfetched hcla' => exact absurd hcla' hcla
    | refused hcla' => exact absurd hcla' hcla
  | fetched hcla hins h =>
    cases h' with
    | fetched _ _ h' =>
      cases h.symm.trans h'
      rfl
    | answered _ hins' => exact absurd hins hins'
  | unfetched hcla hins =>
    cases h' with
    | foreign hcla' => exact absurd hcla hcla'
    | unfetched _ _ _ => rfl
    | refused _ hins' => exact absurd hins hins'
  | answered hcla hins h =>
    cases h' with
    | fetched _ hins' => exact absurd hins' hins
    | answered _ _ h' => rw [h.unique h']
  | refused hcla hins =>
    cases h' with
    | foreign hcla' => exact absurd hcla hcla'
    | unfetched _ hins' => exact absurd hins' hins
    | refused _ _ _ => rfl
  | selected haccess =>
    generalize hanswer : OathView.selectAnswer _ none = data at h'
    cases h' with
    | selected _ => rfl
    | challenged haccess' => exact nomatch haccess.symm.trans haccess'
  | challenged haccess hlen =>
    generalize hanswer : OathView.selectAnswer _ _ = data at h'
    cases h' with
    | selected haccess' => exact nomatch haccess.symm.trans haccess'
    | challenged haccess' hlen' =>
      obtain rfl := Option.some.inj (haccess.symm.trans haccess')
      rw [selectAnswer_inj hlen hlen' hanswer]
  | rebooted =>
    cases h'
    rfl

end

/-! ## What is known of a cell -/

/-- The state and the session are as the host knows, and the state is put away. -/
structure Shows (c : Cell OathState Session) (v : OathView) : Prop where
  book : ∀ name, c.state.credentials.map[name]? = v.book name
  access : c.state.access = v.access
  challenge : ∀ challenge ∈ v.challenge, c.state.pendingChallenge = some challenge
  validated : c.session.validated = v.validated
  remaining : c.session.remaining = v.remaining
  kept : c.kept = c.state

/-- A host that knows of no challenge says nothing about the pending one. -/
theorem pending_of_none {pending : Option Bytes} :
    ∀ challenge ∈ (none : Option Bytes), pending = some challenge :=
  fun _ hnone => absurd hnone (Option.not_mem_none _)

/-- The result is the one that was foretold, and the cell is then as the host knows. -/
def Foretold (v : OathView) (result : Except UInt16 (Bytes × OathView))
    (out : Except Fault ResponseData × Cell OathState Session) : Prop :=
  match result with
  | .ok (data, w) => out.1 = .ok (.ok data) ∧ Shows out.2 w
  | .error sw => out.1 = .error (.status sw) ∧ Shows out.2 v

section

variable {crypto : AppletCrypto} {c : Cell OathState Session} {v : OathView}
  {entries : List (Bytes × OathCredential)}

/-- The book has the names of the state. -/
theorem Shows.isSome_book (h : Shows c v) (name : Bytes) :
    (v.book name).isSome = true ↔ name ∈ c.state.credentials.map := by
  rw [← h.book]
  exact ExtTreeMap.isSome_getElem?_iff_mem

/-- The entries of the state are those of the book. -/
theorem Shows.lists (h : Shows c v) : Lists v.book c.state.credentials.map.toList := by
  refine ⟨ExtTreeMap.ordered_keys_toList, fun name cred => ?_⟩
  rw [ExtTreeMap.mem_toList_iff_getElem?_eq_some, h.book]

/-! ## Short forms -/

theorem pushTlv_eq {value : Bytes} (hlen : value.length ≤ 255) (out : Bytes) (tag : UInt8) :
    pushTlv out tag value = .ok (out ++ OathView.shortForm tag value) := if_pos hlen

theorem length_hmac_le (crypto : AppletCrypto) (algorithm : OathAlgorithm) (key data : Bytes) :
    (hmacByAlgorithm crypto algorithm key data).length ≤ 255 := by
  have hlen := (digestLen_le algorithm).2
  rw [length_hmacByAlgorithm]
  omega

/-- A digest is long enough for every offset. -/
theorem dynamicTruncate_eq {digest : Bytes} (hlen : 20 ≤ digest.length) :
    dynamicTruncate digest = .ok (OathView.truncation digest) := by
  unfold dynamicTruncate OathView.truncation
  cases hlast : digest.getLast? with
  | none =>
    rw [List.getLast?_eq_none_iff.mp hlast] at hlen
    exact absurd hlen (by decide)
  | some last =>
    have hoffset : (last &&& 0x0F).toNat < 16 := by
      rw [UInt8.toNat_and]
      exact Nat.lt_of_le_of_lt Nat.and_le_right (by decide)
    rw [List.getLastD_eq_getLast?, hlast]
    exact if_pos (by omega)

theorem pushCode_eq (crypto : AppletCrypto) (algorithm : OathAlgorithm) (key data out : Bytes)
    (truncated : Bool) (digits : UInt8) :
    pushCode out truncated digits (hmacByAlgorithm crypto algorithm key data) =
      .ok (out ++ OathView.code truncated digits (hmacByAlgorithm crypto algorithm key data)) := by
  have hlen := digestLen_le algorithm
  rw [← length_hmacByAlgorithm crypto algorithm key data] at hlen
  generalize hmacByAlgorithm crypto algorithm key data = digest at hlen
  unfold pushCode OathView.code
  cases truncated with
  | true =>
    have hfour : (digits :: OathView.truncation digest).length ≤ 255 :=
      Nat.succ_le_succ ((List.length_take_le 4 _).trans (by decide))
    rw [if_pos rfl, dynamicTruncate_eq hlen.1]
    exact pushTlv_eq hfour out 0x76
  | false => exact pushTlv_eq (by rw [List.length_cons]; omega) out 0x75

theorem pushAllEntry_eq (crypto : AppletCrypto) {entry : Bytes × OathCredential}
    (hname : NameOk entry.1) (truncated : Bool) (challenge out : Bytes) :
    pushAllEntry crypto truncated challenge out entry =
      .ok (out ++ OathView.allEntry crypto truncated challenge entry) := by
  have hempty : ([] : Bytes).length ≤ 255 := Nat.zero_le 255
  have hlen : entry.1.length ≤ 255 := hname.2.trans (by decide)
  unfold pushAllEntry OathView.allEntry
  rw [pushTlv_eq hlen, ← List.append_assoc]
  cases entry.2.oathType with
  | hotp => exact pushTlv_eq hempty _ 0x77
  | totp =>
    cases entry.2.touchRequired with
    | true => exact pushTlv_eq hempty _ 0x7C
    | false => exact pushCode_eq crypto _ _ _ _ truncated entry.2.digits

/-- A loop that appends a piece for each element. -/
theorem foldlM_append {ε α : Type} {f : Bytes → α → Except ε Bytes} {g : α → Bytes} {l : List α}
    (h : ∀ a ∈ l, ∀ out, f out a = .ok (out ++ g a)) (out : Bytes) :
    l.foldlM f out = .ok (out ++ l.flatMap g) := by
  induction l generalizing out with
  | nil => exact congrArg Except.ok (List.append_nil out).symm
  | cons a l ih =>
    rw [List.foldlM_cons, h a List.mem_cons_self, List.flatMap_cons, ← List.append_assoc]
    exact ih (fun b hb => h b (List.mem_cons_of_mem a hb)) _

/-! ## The entries of a book -/

theorem Shows.length_entries (h : Shows c v) (hlists : Lists v.book entries) :
    c.state.credentials.map.size = entries.length := by
  rw [← ExtTreeMap.length_toList, h.lists.unique hlists]

theorem Shows.nameOk (h : Shows c v) (hlists : Lists v.book entries)
    {entry : Bytes × OathCredential} (hmem : entry ∈ entries) : NameOk entry.1 := by
  have hbook := (hlists.exact entry.1 entry.2).mp hmem
  exact c.state.credentials.names_ok entry.1 ((h.isSome_book entry.1).mp (by rw [hbook]; rfl))

/-! ## The rules -/

theorem foretold_refuse (h : Shows c v) (sw : UInt16) :
    Foretold v (.error sw) (Cell.run (refuse sw) c) := ⟨rfl, h⟩

theorem run_requireValidated_bind {α : Type} (c : Cell OathState Session)
    (f : Unit → OathCommand α) : Cell.run (requireValidated >>= f) c =
      if opened c.state c.session then Cell.run (f ()) c
      else (.error (.status swSecurityStatus), c) :=
  Cell.run_require_bind c (opened c.state c.session) swSecurityStatus f

theorem Shows.opened (h : Shows c v) :
    opened c.state c.session = !(v.access.isSome && !v.validated) := by
  rw [Oath.opened, h.access, h.validated]

theorem foretold_gated {f : Unit → OathCommand ResponseData}
    {result : Except UInt16 (Bytes × OathView)} (h : Shows c v)
    (hf : Foretold v result (Cell.run (f ()) c)) :
    Foretold v (v.gated result) (Cell.run (requireValidated >>= f) c) := by
  rw [run_requireValidated_bind, h.opened, OathView.gated]
  cases v.access.isSome && !v.validated with
  | true => exact ⟨rfl, h⟩
  | false => exact hf

theorem foretold_orStatus {α : Type} {value : Except UInt16 α}
    {g : α → Except UInt16 (Bytes × OathView)} {f : α → OathCommand ResponseData}
    (h : Shows c v) (hf : ∀ a, value = .ok a → Foretold v (g a) (Cell.run (f a) c)) :
    Foretold v (value >>= g) (Cell.run (orStatus value >>= f) c) := by
  rw [Cell.run_orStatus_bind]
  cases value with
  | error sw => exact ⟨rfl, h⟩
  | ok a => exact hf a rfl

/-! ## The book -/

/-- A state that is set and put away. -/
theorem foretold_persisted {state : OathState} {w : OathView} (v : OathView)
    (hw : ∀ rng, Shows ⟨⟨state, state, c.session⟩, rng⟩ w) :
    Foretold v (.ok ([], w))
      (Cell.run (do setState state; persistState; pure (.ok [])) c) := by
  rw [Cell.run_setState_bind, Cell.run_persistState_bind, Cell.run_pure]
  exact ⟨rfl, hw _⟩

/-- Other credentials, as the book after a write has them. -/
theorem Shows.write (h : Shows c v) {name : Bytes} {cred : Option OathCredential}
    {creds : OathCredentials}
    (hcreds : ∀ other, creds.map[other]? = if other = name then cred else v.book other)
    (rng : Nat → Entropy) :
    Shows ⟨⟨{ c.state with credentials := creds }, { c.state with credentials := creds },
      c.session⟩, rng⟩ (v.write name cred) := by
  refine ⟨fun other => ?_, h.access, h.challenge, h.validated, h.remaining, rfl⟩
  show creds.map[other]? = Function.update v.book name cred other
  rw [hcreds, Function.update_apply]

theorem foretold_put (h : Shows c v) (hlists : Lists v.book entries) (data : Bytes) :
    Foretold v (v.gated (v.put entries data)) (Cell.run (cmdPut data) c) := by
  refine foretold_gated h (foretold_orStatus h fun req _ => ?_)
  rw [Cell.run_stateMut_bind, ← h.length_entries hlists]
  by_cases hroom : req.name ∈ c.state.credentials.map ∨ c.state.credentials.map.size < 32
  · have hbook : (v.book req.name).isSome = true ∨ c.state.credentials.map.size < 32 :=
      hroom.imp (h.isSome_book _).mpr id
    rw [if_pos hbook, dif_pos hroom]
    refine foretold_persisted v (h.write fun other => ?_)
    rw [OathCredentials.getElem?_insert, h.book]
  · have hbook : ¬((v.book req.name).isSome = true ∨ c.state.credentials.map.size < 32) :=
      fun hor => hroom (hor.imp (h.isSome_book _).mp id)
    rw [if_neg hbook, dif_neg hroom]
    exact foretold_refuse h _

theorem foretold_delete (h : Shows c v) (data : Bytes) :
    Foretold v (v.gated (v.delete data)) (Cell.run (cmdDelete data) c) := by
  refine foretold_gated h (foretold_orStatus h fun name _ => ?_)
  rw [Cell.run_stateMut_bind]
  by_cases hmem : name ∈ c.state.credentials.map
  · rw [if_pos ((h.isSome_book name).mpr hmem), if_pos hmem]
    refine foretold_persisted v (h.write fun other => ?_)
    rw [OathCredentials.getElem?_erase, h.book]
  · rw [if_neg (mt (h.isSome_book name).mp hmem), if_neg hmem]
    exact foretold_refuse h _

theorem foretold_rename (h : Shows c v) (data : Bytes) :
    Foretold v (v.gated (v.rename data)) (Cell.run (cmdRename data) c) := by
  refine foretold_gated h (foretold_orStatus h fun names _ => ?_)
  obtain ⟨current, new, hnew⟩ := names
  rw [Cell.run_stateMut_bind]
  by_cases hmem : current ∈ c.state.credentials.map
  · have hcred : v.book current = some (c.state.credentials.map.get current hmem) := by
      rw [← h.book]
      exact ExtTreeMap.getElem?_eq_some_getElem hmem
    rw [dif_pos hmem]
    simp only [hcred]
    by_cases hfree : new ∈ c.state.credentials.map
    · rw [if_pos ((h.isSome_book new).mpr hfree), if_pos hfree]
      exact foretold_refuse h _
    · rw [if_neg (mt (h.isSome_book new).mp hfree), if_neg hfree]
      have herased : ∀ other, (c.state.credentials.erase current).map[other]? =
          if other = current then none else v.book other := fun other => by
        rw [OathCredentials.getElem?_erase, h.book]
      refine foretold_persisted v ((h.write herased c.rng).write fun other => ?_)
      rw [renamed, OathCredentials.getElem?_insert, ← (h.write herased c.rng).book]
  · have hnone : v.book current = none := by
      rw [← h.book]
      exact ExtTreeMap.getElem?_eq_none hmem
    rw [dif_neg hmem]
    simp only [hnone]
    exact foretold_refuse h _

/-! ## The access code -/

theorem foretold_setCode (h : Shows c v) (data : Bytes) :
    Foretold v (v.gated (v.setCode crypto data)) (Cell.run (cmdSetCode crypto data) c) := by
  refine foretold_gated h (foretold_orStatus h fun tlvs _ => foretold_orStatus h fun keyed _ => ?_)
  obtain ⟨key, rest⟩ := keyed
  simp only
  by_cases hkey : key = []
  · rw [if_pos hkey, if_pos hkey]
    refine foretold_orStatus h fun _ _ => ?_
    rw [Cell.run_stateMut_bind, Cell.run_setState_bind, Cell.run_modifySession_bind,
      Cell.run_persistState_bind, Cell.run_pure]
    exact ⟨rfl, h.book, rfl, pending_of_none, rfl, h.remaining, rfl⟩
  · rw [if_neg hkey, if_neg hkey]
    refine foretold_orStatus h fun access _ => ?_
    rw [Cell.run_draw_bind, Cell.run_stateMut_bind]
    exact foretold_persisted v fun _ =>
      ⟨h.book, rfl, pending_of_none, h.validated, h.remaining, rfl⟩

theorem foretold_reset (h : Shows c v) (p1 p2 : UInt8) :
    Foretold v (OathView.reset p1 p2) (Cell.run (cmdReset p1 p2) c) := by
  unfold cmdReset OathView.reset
  rw [Cell.run_require_bind]
  by_cases hcode : p1 = 0xDE ∧ p2 = 0xAD
  · rw [if_pos (decide_eq_true hcode), if_pos hcode, Cell.run_draw_bind, Cell.run_setState_bind,
      Cell.run_modifySession_bind, Cell.run_persistState_bind, Cell.run_pure]
    exact ⟨rfl, fun _ => ExtTreeMap.getElem?_empty, rfl, pending_of_none, rfl, rfl, rfl⟩
  · rw [if_neg (mt of_decide_eq_true hcode), if_neg hcode]
    exact ⟨rfl, h⟩

variable (crypto) in
/-- VALIDATE is the only command whose outcome may hang on what was not shown. -/
theorem foretold_validate (h : Shows c v) (data : Bytes) : ∃ result,
    Validates crypto v data result ∧ Foretold v result (Cell.run (cmdValidate crypto data) c) := by
  have hrefuse : ∀ sw, Foretold v (.error sw) (.error (.status sw), c) := fun sw => ⟨rfl, h⟩
  unfold cmdValidate checkValidate
  rw [Cell.run_bind, Cell.run_stateMut_bind]
  cases haccess : c.state.access with
  | none =>
    refine ⟨.error swNoSuchObject, .denied fun access _ _ _ hsome => ?_, hrefuse _⟩
    rw [← h.access, haccess] at hsome
    cases hsome
  | some access =>
    cases hpending : c.state.pendingChallenge with
    | none =>
      refine ⟨.error swNoSuchObject, .denied fun _ pending _ _ _ hshown => ?_, hrefuse _⟩
      rw [h.challenge pending hshown] at hpending
      cases hpending
    | some pending =>
      have hshown : ∀ {challenge}, v.challenge = some challenge → challenge = pending := by
        intro challenge hchallenge
        exact Option.some.inj ((h.challenge challenge hchallenge).symm.trans hpending)
      have hknown : v.access = some access := h.access.symm.trans haccess
      simp only
      rw [Cell.run_orStatus_bind]
      cases hparse : parseValidate data with
      | error sw =>
        refine ⟨.error sw, .denied fun _ _ _ _ _ _ hok => ?_, hrefuse _⟩
        rw [hparse] at hok
        cases hok
      | ok request =>
        obtain ⟨response, challenge⟩ := request
        simp only
        rw [Cell.run_require_bind]
        by_cases hright : hmacByAlgorithm crypto access.algorithm access.key pending = response
        · rw [if_pos (decide_eq_true hright)]
          refine ⟨_, .granted hknown hparse fun shown hchallenge => ?_, ?_⟩
          · rw [hshown hchallenge]
            exact hright
          · rw [Cell.run_pure]
            simp only [acceptValidate]
            rw [Cell.run_setState_bind, Cell.run_persistState_bind, Cell.run_modifySession_bind,
              pushTlv_eq (length_hmac_le crypto access.algorithm access.key challenge.1)]
            exact ⟨rfl, h.book, hknown.symm, fun _ hsome => hsome, rfl, h.remaining, rfl⟩
        · rw [if_neg (mt of_decide_eq_true hright)]
          refine ⟨.error swNoSuchObject, .denied fun _ _ _ _ hsome hchallenge hok => ?_, hrefuse _⟩
          obtain rfl := Option.some.inj (hknown.symm.trans hsome)
          rw [hshown hchallenge]
          rw [hparse] at hok
          cases hok
          exact hright

/-! ## Codes -/

theorem foretold_list (h : Shows c v) (hlists : Lists v.book entries) :
    Foretold v (v.gated (.ok (entries.flatMap OathView.listEntry, v))) (Cell.run cmdList c) := by
  refine foretold_gated h ?_
  rw [Cell.run_stateMut_bind, h.lists.unique hlists,
    foldlM_append (g := OathView.listEntry) fun entry hmem out => ?_]
  · exact ⟨rfl, h⟩
  · refine pushTlv_eq ?_ out 0x72
    have hname := (h.nameOk hlists hmem).2
    rw [List.length_cons]
    omega

theorem foretold_calculateAll (h : Shows c v) (hlists : Lists v.book entries) (p2 : UInt8)
    (data : Bytes) : Foretold v (v.gated (v.calculateAll crypto entries p2 data))
      (Cell.run (cmdCalculateAll crypto p2 data) c) := by
  refine foretold_gated h (foretold_orStatus h fun challenge _ => ?_)
  rw [Cell.run_stateMut_bind, h.lists.unique hlists,
    foldlM_append (g := OathView.allEntry crypto (p2 = 0x01) challenge) fun entry hmem out => ?_]
  · exact ⟨rfl, h⟩
  · exact pushAllEntry_eq crypto (h.nameOk hlists hmem) _ _ out

/-- The counter moves on, in the state as in the book, before the code is shown. -/
theorem run_advanceCounter (h : Shows c v) {name : Bytes} {cred : OathCredential}
    (hcred : v.book name = some cred) (next : Option UInt64) : ∃ d,
    Cell.run (advanceCounter name cred next) c = (.ok (), d) ∧
      Shows d (v.counted name cred next) := by
  cases next with
  | none => exact ⟨c, rfl, h⟩
  | some next =>
    have hset : ∀ other, (c.state.credentials.setCounter name next).map[other]? =
        if other = name then some { cred with hotpCounter := next } else v.book other := by
      intro other
      rw [OathCredentials.getElem?_setCounter, h.book, hcred, h.book]
      rfl
    exact ⟨_, rfl, h.write hset _⟩

theorem foretold_calculate (h : Shows c v) (p2 : UInt8) (data : Bytes) :
    Foretold v (v.gated (v.calculate crypto p2 data))
      (Cell.run (cmdCalculate crypto p2 data) c) := by
  refine foretold_gated h (foretold_orStatus h fun asked _ => ?_)
  obtain ⟨name, challenge⟩ := asked
  simp only
  rw [Cell.run_stateMut_bind, Cell.run_orRefuse_bind, h.book]
  cases hcred : v.book name with
  | none => exact ⟨rfl, h⟩
  | some cred =>
    refine foretold_orStatus h fun factor _ => ?_
    obtain ⟨signed, next⟩ := factor
    obtain ⟨d, hadvance, hshows⟩ := run_advanceCounter h hcred next
    simp only
    rw [Cell.run_bind, hadvance]
    simp only
    rw [pushCode_eq crypto]
    exact ⟨rfl, hshows⟩

/-! ## The uses of the applet -/

theorem foretold_ite {p : Prop} [Decidable p] {a b : Except UInt16 (Bytes × OathView)}
    {m m' : OathCommand ResponseData} (hpos : p → Foretold v a (Cell.run m c))
    (hneg : ¬p → Foretold v b (Cell.run m' c)) :
    Foretold v (if p then a else b) (Cell.run (if p then m else m') c) := by
  by_cases h : p
  · rw [if_pos h, if_pos h]
    exact hpos h
  · rw [if_neg h, if_neg h]
    exact hneg h

variable (crypto) in
theorem foretold_dispatch (h : Shows c v) (apdu : Apdu) : ∃ result,
    Dispatches crypto v apdu result ∧ Foretold v result (Cell.run (dispatch crypto apdu) c) := by
  by_cases hins : apdu.ins = insValidate
  · obtain ⟨result, hvalidates, hforetold⟩ := foretold_validate crypto h apdu.data
    refine ⟨result, .validate hins hvalidates, ?_⟩
    have hdispatch : dispatch crypto apdu = cmdValidate crypto apdu.data := by
      unfold dispatch
      rw [hins]
      rfl
    rw [hdispatch]
    exact hforetold
  · refine ⟨_, .other hins h.lists, ?_⟩
    unfold dispatch OathView.serve
    rw [if_neg hins]
    exact foretold_ite (fun _ => foretold_put h h.lists _) fun _ =>
      foretold_ite (fun _ => foretold_delete h _) fun _ =>
      foretold_ite (fun _ => foretold_setCode h _) fun _ =>
      foretold_ite (fun _ => foretold_reset h _ _) fun _ =>
      foretold_ite (fun _ => foretold_rename h _) fun _ =>
      foretold_ite (fun _ => foretold_list h h.lists) fun _ =>
      foretold_ite (fun _ => foretold_calculate h _ _) fun _ =>
      foretold_ite (fun _ => foretold_calculateAll h h.lists _ _) fun _ => foretold_refuse h _

/-- SEND REMAINING hands out what the host has not got yet. -/
theorem run_cmdSendRemaining (h : Shows c v) (apdu : Apdu) :
    match v.fetch apdu.le with
    | .ok (response, w) => (Cell.run (cmdSendRemaining apdu) c).1 = .ok response ∧
        Shows (Cell.run (cmdSendRemaining apdu) c).2 w
    | .error sw => Cell.run (cmdSendRemaining apdu) c = (.error (.status sw), c) := by
  rw [cmdSendRemaining, run_requireValidated_bind, h.opened, OathView.fetch]
  cases v.access.isSome && !v.validated with
  | true => rfl
  | false =>
    rw [Bool.not_false, if_pos rfl, if_neg Bool.false_ne_true, Cell.run_session_bind, h.remaining]
    rcases v.remaining with _ | ⟨buffer, pos⟩
    · rfl
    · simp only
      have hkeep : ∀ remaining, Shows ⟨⟨c.state, c.kept, { c.session with remaining := remaining }⟩,
          c.rng⟩ { v with remaining := remaining } := fun _ =>
        ⟨h.book, h.access, h.challenge, h.validated, rfl, h.kept⟩
      by_cases hdone : pos ≥ buffer.length
      · have hstop : ¬min (pos + min (apdu.le.getD 255) 255) buffer.length < buffer.length := by
          omega
        rw [if_pos hdone, if_neg hstop, List.drop_eq_nil_of_le hdone]
        exact ⟨rfl, hkeep none⟩
      · rw [if_neg hdone]
        by_cases hmore : min (pos + min (apdu.le.getD 255) 255) buffer.length < buffer.length
        · rw [if_pos hmore, if_pos hmore]
          exact ⟨rfl, hkeep _⟩
        · have hrest : (buffer.drop pos).take
              (min (pos + min (apdu.le.getD 255) 255) buffer.length - pos) = buffer.drop pos := by
            apply List.take_of_length_le
            rw [List.length_drop]
            omega
          rw [if_neg hmore, if_neg hmore, hrest]
          exact ⟨rfl, hkeep none⟩

theorem explains_command (h : Shows c v) (apdu : Apdu) : ∃ w,
    Explains crypto v (.command apdu, (Cell.run (process crypto apdu) c).1) w ∧
      Shows (Cell.run (process crypto apdu) c).2 w := by
  unfold process
  rw [Cell.run_require_bind]
  by_cases hcla : apdu.cla = 0
  · rw [if_pos (decide_eq_true hcla)]
    by_cases hins : apdu.ins = insSendRemaining
    · rw [if_pos hins]
      have hfetch := run_cmdSendRemaining h apdu
      cases hresult : v.fetch apdu.le with
      | ok fetched =>
        obtain ⟨response, w⟩ := fetched
        rw [hresult] at hfetch
        rw [hfetch.1]
        exact ⟨w, .fetched hcla hins hresult, hfetch.2⟩
      | error sw =>
        rw [hresult] at hfetch
        simp only at hfetch
        rw [hfetch]
        exact ⟨v, .unfetched hcla hins hresult, h⟩
    · rw [if_neg hins, Cell.run_attempt_bind]
      obtain ⟨result, hanswer, hforetold⟩ := foretold_dispatch crypto h apdu
      generalize Cell.run (dispatch crypto apdu) c = out at hforetold ⊢
      obtain ⟨answer, d⟩ := out
      cases result with
      | ok served =>
        obtain ⟨data, w⟩ := served
        obtain ⟨rfl, hd⟩ := hforetold
        exact ⟨_, .answered hcla hins hanswer, hd.book, hd.access, hd.challenge, hd.validated, rfl,
          hd.kept⟩
      | error sw =>
        obtain ⟨rfl, hd⟩ := hforetold
        exact ⟨_, .refused hcla hins hanswer, hd.book, hd.access, hd.challenge, hd.validated, rfl,
          hd.kept⟩
  · rw [if_neg (mt of_decide_eq_true hcla)]
    exact ⟨v, .foreign hcla, h⟩

/-- The answer to SELECT around a state without an access code. -/
theorem selectPayload_open {state : OathState} (haccess : state.access = none) :
    selectPayload state = .ok (OathView.selectAnswer state.salt none) := by
  have hsalt : state.salt.length ≤ 255 := state.salt_ok.2.trans (by decide)
  have hversion : ([0x03, 0x04, 0x00] : Bytes).length ≤ 255 := by decide
  unfold selectPayload
  rw [pushTlv_eq hversion]
  show pushTlv _ 0x71 state.salt >>= _ = _
  rw [pushTlv_eq hsalt, haccess]
  rfl

/-- The answer to SELECT around a state with an access code. -/
theorem selectPayload_locked {state : OathState} {access : OathAccess} {challenge : Bytes}
    (haccess : state.access = some access) (hpending : state.pendingChallenge = some challenge) :
    selectPayload state = .ok (OathView.selectAnswer state.salt (some (access, challenge))) := by
  have hsalt : state.salt.length ≤ 255 := state.salt_ok.2.trans (by decide)
  have hversion : ([0x03, 0x04, 0x00] : Bytes).length ≤ 255 := by decide
  have hchallenge : challenge.length ≤ 255 :=
    Nat.le_of_lt_succ (state.pending_ok challenge hpending).1.2
  have hwire : [access.algorithm.wireByte].length ≤ 255 := Nat.le_add_left 1 254
  unfold selectPayload
  rw [pushTlv_eq hversion]
  show pushTlv _ 0x71 state.salt >>= _ = _
  rw [pushTlv_eq hsalt, haccess, hpending]
  show pushTlv _ 0x74 challenge >>= _ = _
  rw [pushTlv_eq hchallenge]
  exact pushTlv_eq hwire _ 0x7B

/-- SELECT closes the session, and shows the challenge that it draws. -/
theorem explains_select (h : Shows c v) : ∃ w,
    Explains crypto v (.select, (Cell.run AppletName.oath.selected c).1) w ∧
      Shows (Cell.run AppletName.oath.selected c).2 w := by
  have hrun : Cell.run AppletName.oath.selected c =
      Cell.run (rotateChallengeForSelect >>= fun _ => selectResponse >>= fun data =>
        (pure (.ok data) : OathCommand ResponseData))
        { c with session := { c.session with validated := false } } := rfl
  rw [hrun]
  unfold rotateChallengeForSelect selectResponse
  rw [Cell.run_bind, Cell.run_inspect_bind]
  cases haccess : c.state.access with
  | none =>
    have hlocked : locked ⟨some c.state, { c.session with validated := false }⟩ = false := by
      rw [locked, Option.bind_some, haccess]
      rfl
    rw [hlocked, if_neg Bool.false_ne_true, Cell.run_pure]
    simp only
    rw [Cell.run_bind, Cell.run_tryLoad_bind]
    simp only
    rw [Cell.run_loadedState_bind, selectPayload_open haccess]
    exact ⟨_, .selected (h.access.symm.trans haccess), h.book, h.access, h.challenge, rfl,
      h.remaining, h.kept⟩
  | some access =>
    have hlocked : locked ⟨some c.state, { c.session with validated := false }⟩ = true := by
      rw [locked, Option.bind_some, haccess]
      rfl
    rw [hlocked, if_pos rfl, Cell.run_draw_bind, Cell.run_stateMut_bind]
    simp only [haccess]
    rw [Cell.run_setState_bind, Cell.run_persistState]
    simp only
    rw [Cell.run_bind, Cell.run_tryLoad_bind]
    simp only
    rw [Cell.run_loadedState_bind, selectPayload_locked rfl rfl]
    exact ⟨_, .challenged (h.access.symm.trans haccess) (Entropy.length_bytes _ 8), h.book,
      haccess.symm.trans h.access, fun _ hsome => hsome, rfl, h.remaining, rfl⟩

/-- Every use of a cell is explained by what was known. -/
theorem explains_use (h : Shows c v) (e : AppletUse) : ∃ w,
    Explains crypto v (e, ((Cell.use crypto .oath e).run c).1) w ∧
      Shows ((Cell.use crypto .oath e).run c).2 w := by
  cases e with
  | select => exact explains_select h
  | command apdu => exact explains_command h apdu
  | reboot rng =>
    refine ⟨_, .rebooted, ?_⟩
    show Shows ⟨⟨c.kept, c.kept, Session.fresh⟩, rng⟩ _
    rw [h.kept]
    exact ⟨h.book, h.access, h.challenge, rfl, rfl, rfl⟩

end

theorem shows_ofState (state : OathState) (rng : Nat → Entropy) :
    Shows ⟨⟨state, state, Session.fresh⟩, rng⟩ (OathView.ofState state) :=
  ⟨fun _ => rfl, rfl, pending_of_none, rfl, rfl, rfl⟩

/-- Over a storage that does not fail, all that the applet answers is explained by what a host knows
that has seen all of it, and knew the state at the beginning. -/
theorem oath_transcript {β : Type} [StorageBackend β] [LawfulBackend β]
    (codec : Codec StoredCredential) {crypto : AppletCrypto} (haead : AeadSound crypto.prims)
    (htotal : AeadTotal crypto.prims) {patience : Nat} {b : β} {rng : Nat → Entropy}
    {h : Host β OathState Session}
    (hbuilt : Host.built codec crypto patience .oath b rng = (.ok (), h)) : ∃ state,
    Host.Opens crypto format (StorageEngine.withBackend codec b) state ∧
      ∀ uses : List AppletUse, ∃! w, Transcript (Explains crypto) (OathView.ofState state)
        (uses.zip (Prog.results (Host.use codec crypto patience .oath) uses h).1) w :=
  Host.transcript_of_built (n := .oath) (R := Shows) codec haead htotal
    (fun _ _ _ _ h h' => h.unique h') (fun e _ _ hshows => explains_use hshows e)
    (fun state rng _ => shows_ofState state rng) hbuilt

/-! ## A counter across a reboot -/

/-- PUT of a HOTP credential, a code before a reboot and one after it, and LIST. -/
def bookUses : List AppletUse :=
  [.command countPut, .command (countCalculate []), .reboot (KnownAead.constantDraws 0x09),
    .command (countCalculate []), .command ⟨0, insList, 0, 0, [], none⟩]

/-- The answers to them: both codes are of a digest of zeros. -/
def bookAnswers : List (Except Fault ResponseData) :=
  let digest := .ok (.ok ([0x75, 21, 6] ++ List.replicate 20 0))
  [.ok (.ok []), digest, .ok (.ok []), digest, .ok (.ok [0x72, 2, 0x11, 0x61])]

/-- The applet that is built over a medium with a factory state. -/
def bookHost : Except Fault Unit × Host KvMap OathState Session :=
  Host.built unusedCodec countCrypto 1 .oath countMedium.entries (KnownAead.constantDraws 0x09)

theorem oath_transcript_counted : ∃ state w, Transcript (Explains countCrypto)
    (OathView.ofState state) (bookUses.zip bookAnswers) w := by
  have hbuilt : Host.built unusedCodec countCrypto 1 .oath countMedium.entries
      (KnownAead.constantDraws 0x09) = (.ok (), bookHost.2) := Prod.ext (by decide +kernel) rfl
  have hanswers : (Prog.results (Host.use unusedCodec countCrypto 1 .oath) bookUses
      bookHost.2).1 = bookAnswers := by decide +kernel
  obtain ⟨state, -, hexplained⟩ := oath_transcript unusedCodec sound_countCrypto
    (KnownAead.total _ _) hbuilt
  obtain ⟨w, hlog, -⟩ := hexplained bookUses
  rw [hanswers] at hlog
  exact ⟨state, w, hlog⟩

end Oath

end OpenKey
