import OpenKey.Device.KnownAead
import OpenKey.Device.Oath

/-!
# What the OATH commands persist

Each command of the OATH applet persists one state or none. `edited` is that state, from the state
in memory and the request; `Outcome` says what the applet is after the command, when the storage
takes the state and when it refuses it (`ends_process`).

**Errors (`error_atomic_iff`).** Over a state that is the persisted one, a command that is answered
with an error leaves memory and storage as they were, and one that succeeds leaves them in
agreement, exactly when it persists nothing, or the storage takes the state, or the command is a
CALCULATE, or the state is the one that was there.
-/

namespace OpenKey

open Command

set_option autoImplicit false

namespace Oath

variable {β : Type} [StorageBackend β]

/-! ## Edits -/

/-- A state to persist. -/
structure Edit where
  state : OathState
  /-- The draws before it is sealed. -/
  draws : Nat
  /-- The command takes it back if it cannot be persisted. -/
  undone : Bool

/-- A credential in its place. -/
def putEdit (state : OathState) (data : Bytes) : Option Edit :=
  match parsePut data with
  | .ok req =>
      if h : req.name ∈ state.credentials.map ∨ state.credentials.map.size < 32 then
        some ⟨{ state with
          credentials := state.credentials.insert req.name req.cred req.name_ok h }, 0, false⟩
      else none
  | .error _ => none

/-- Without a credential. -/
def deleteEdit (state : OathState) (data : Bytes) : Option Edit :=
  match parseDelete data with
  | .ok name =>
      if name ∈ state.credentials.map then
        some ⟨{ state with credentials := state.credentials.erase name }, 0, false⟩
      else none
  | .error _ => none

theorem nameOk_property (name : { n : Bytes // NameOk n }) : NameOk name.1 := name.2

/-- A credential under another name. -/
def renameEdit (state : OathState) (data : Bytes) : Option Edit :=
  match parseRename data with
  | .ok (current, new) =>
      if h : current ∈ state.credentials.map then
        if new.1 ∈ state.credentials.map then none
        else some ⟨{ state with
          credentials :=
            renamed state.credentials current new.1 h (nameOk_property new) }, 0, false⟩
      else none
  | .error _ => none

/-- Another access code, or none. -/
def setCodeEdit (crypto : AppletCrypto) (state : OathState) (entropy : Entropy) (data : Bytes) :
    Option Edit :=
  match parseTlvs data >>= fun tlvs => needTag tlvs 0x73 with
  | .ok (key, tlvs) =>
      if key = [] then
        if tlvs = [] then some ⟨withoutAccess state, 0, false⟩ else none
      else
        match parseSetCode crypto tlvs key with
        | .ok access =>
            some ⟨withAccess state access (entropy.bytes 8) (challengeOk_bytes entropy), 1, false⟩
        | .error _ => none
  | .error _ => none

/-- The next counter of a HOTP credential. -/
def calculateEdit (state : OathState) (p2 : UInt8) (data : Bytes) : Option Edit :=
  match parseCalculate p2 data with
  | .ok (name, challenge) =>
      state.credentials.map[name]?.bind fun cred =>
        match movingFactor cred challenge with
        | .ok (_, some next) =>
            some ⟨{ state with credentials := state.credentials.setCounter name next }, 0, true⟩
        | _ => none
  | .error _ => none

theorem challengeOk_property (challenge : { c : Bytes // ChallengeOk c }) :
    ChallengeOk challenge.1 := challenge.2

/-- The challenge of the host. -/
def validateEdit (crypto : AppletCrypto) (state : OathState) (data : Bytes) : Option Edit :=
  match state.access, state.pendingChallenge with
  | some access, some pending =>
      match parseValidate data with
      | .ok (response, challenge) =>
          if hmacByAlgorithm crypto access.algorithm access.key pending = response then
            some ⟨withAccess state access challenge.1 (challengeOk_property challenge), 0, false⟩
          else none
      | .error _ => none
  | _, _ => none

/-- The session has what an access code asks for. -/
def opened (state : OathState) (session : Session) : Bool :=
  !(state.access.isSome && !session.validated)

/-- The state that a command is to persist. -/
def edited (crypto : AppletCrypto) (state : OathState) (session : Session) (entropy : Entropy)
    (apdu : Apdu) : Option Edit :=
  if apdu.cla ≠ 0 then none
  else if apdu.ins = insReset then
    if apdu.p1 = 0xDE ∧ apdu.p2 = 0xAD then some ⟨factoryState entropy, 1, false⟩ else none
  else if apdu.ins = insValidate then validateEdit crypto state apdu.data
  else if !opened state session then none
  else if apdu.ins = insPut then putEdit state apdu.data
  else if apdu.ins = insDelete then deleteEdit state apdu.data
  else if apdu.ins = insSetCode then setCodeEdit crypto state entropy apdu.data
  else if apdu.ins = insRename then renameEdit state apdu.data
  else if apdu.ins = insCalculate then calculateEdit state apdu.p2 apdu.data
  else none

/-! ## Outcomes -/

/-- The storage takes the state, sealed after the draws of the command. -/
def taken (crypto : AppletCrypto) (h : Host β OathState Session) (edit : Edit) : Bool :=
  Host.accepts crypto format { h with rng := fun n => h.rng (n + edit.draws) } edit.state

/-- The applet after a command that has this to persist, with the state before it. -/
inductive Outcome [FallibleBackend β] (crypto : AppletCrypto) (state : OathState)
    (h g : Host β OathState Session) : Option Edit → Except Fault ResponseData → Prop
  | stays (result : Except Fault ResponseData) (memory : g.memory.state = some state)
      (saved : g.saved = h.saved) (storage : g.storage = h.storage) :
      Outcome crypto state h g none result
  | written (edit : Edit) (response : ResponseData) (taken : taken crypto h edit = true)
      (memory : g.memory.state = some edit.state) (saved : g.saved = some edit.state)
      (backend : g.storage.backend.isSome)
      (held : ∃ blob entropy, g.storage.heldEntry format.storageKey = some blob ∧
        Host.sealState crypto format edit.state entropy = .ok blob) :
      Outcome crypto state h g (some edit) (.ok response)
  | failed (edit : Edit) (refused : taken crypto h edit = false)
      (memory : g.memory.state = some (if edit.undone then state else edit.state))
      (saved : g.saved = h.saved) (backend : g.storage.backend.isSome)
      (held : g.storage.heldEntry format.storageKey = h.storage.heldEntry format.storageKey) :
      Outcome crypto state h g (some edit) (.error (.status swGenericError))

/-- The applet when a command is about to persist its state. -/
structure Poised (edit : Edit) (h g : Host β OathState Session) : Prop where
  state : g.memory.state = some edit.state
  storage : g.storage = h.storage
  saved : g.saved = h.saved
  rng : g.rng 0 = h.rng edit.draws

theorem Poised.accepts_eq {edit : Edit} {h g : Host β OathState Session} (hp : Poised edit h g)
    (crypto : AppletCrypto) :
    Host.accepts crypto format g edit.state = taken crypto h edit := by
  refine Host.accepts_congr (h := { h with rng := fun n => h.rng (n + edit.draws) }) hp.storage ?_
    edit.state
  show g.rng 0 = h.rng (0 + edit.draws)
  rw [hp.rng, Nat.zero_add]

section

variable [FallibleBackend β] {crypto : AppletCrypto} {state : OathState}
  {h : Host β OathState Session}

theorem Outcome.of_session {g g' : Host β OathState Session} {target : Option Edit}
    {result : Except Fault ResponseData} (hout : Outcome crypto state h g target result)
    (hmem : g'.memory.state = g.memory.state) (hsaved : g'.saved = g.saved)
    (hstorage : g'.storage = g.storage) : Outcome crypto state h g' target result := by
  cases hout with
  | stays _ memory saved storage =>
      exact .stays _ (hmem.trans memory) (hsaved.trans saved) (hstorage.trans storage)
  | written edit response taken memory saved backend held =>
      rw [← hstorage] at backend held
      exact .written edit response taken (hmem.trans memory) (hsaved.trans saved) backend held
  | failed edit refused memory saved backend held =>
      rw [← hstorage] at backend held
      exact .failed edit refused (hmem.trans memory) (hsaved.trans saved) backend held

variable (hmem : h.memory.state = some state) (hb : h.storage.backend.isSome)

include hmem

omit [FallibleBackend β] in
theorem ends_requireValidated {α : Type} {f : Unit → OathCommand α}
    {Q : Except Fault α → Host β OathState Session → Prop}
    (hopen : opened state h.memory.session = true → Host.Ends crypto format (f ()) h Q)
    (hclosed : opened state h.memory.session = false → Q (.error (.status swSecurityStatus)) h) :
    Host.Ends crypto format (requireValidated >>= f) h Q := by
  have hgate : (!(locked h.memory && !h.memory.session.validated)) =
      opened state h.memory.session := by
    unfold locked opened
    rw [hmem]
    rfl
  refine .bind (.ensureLoaded hmem (.inspect ?_))
  rw [hgate]
  exact .require_last hopen hclosed

omit hmem in
include hb in
/-- The end of a command that persists the state it has put in memory. -/
theorem ends_persist {g : Host β OathState Session} {edit : Edit} (hpoised : Poised edit h g)
    (hundone : edit.undone = false) {f : Unit → OathCommand ResponseData}
    (hf : ∀ t : Host β OathState Session, Host.Ends crypto format (f ()) t fun r t' =>
      (∃ response, r = .ok response) ∧ t'.memory.state = t.memory.state ∧ t'.saved = t.saved ∧
        t'.storage = t.storage) :
    Host.Ends crypto format (persistState >>= f) g fun r t =>
      Outcome crypto state h t (some edit) r := by
  have htaken := hpoised.accepts_eq crypto
  obtain ⟨hstate, hstorage, hsaved, -⟩ := hpoised
  refine .persistState hstate (by rw [hstorage]; exact hb) (fun t ht => ?_) fun t ht => ?_
  · refine (hf t).mono fun r t' hr => ?_
    obtain ⟨⟨response, rfl⟩, hmem', hsaved', hstorage'⟩ := hr
    obtain ⟨blob, hheld, hseal⟩ := ht.held
    refine .written edit response (htaken ▸ ht.accepted) ?_ (hsaved'.trans ht.saved) ?_
      ⟨blob, _, by rw [hstorage', hheld], hseal⟩
    · rw [hmem', ht.memory, hstate]
    · rw [hstorage']
      exact ht.backend
  · refine .failed edit (htaken ▸ ht.refused) ?_ (ht.saved.trans hsaved) ht.backend ?_
    · rw [ht.memory, hstate, hundone]
      rfl
    · rw [ht.held, hstorage]

omit hmem in
include hb in
theorem ends_persist_ok {g : Host β OathState Session} {edit : Edit} (hpoised : Poised edit h g)
    (hundone : edit.undone = false) {response : ResponseData} :
    Host.Ends crypto format (persistState >>= fun _ => pure response) g fun r t =>
      Outcome crypto state h t (some edit) r :=
  ends_persist hb hpoised hundone fun _ => ⟨⟨response, rfl⟩, rfl, rfl, rfl⟩

/-- Behind the gate, with nothing to persist where it is closed. -/
theorem ends_gated {f : Unit → OathCommand ResponseData} {target : Option Edit}
    (hf : Host.Ends crypto format (f ()) h fun r g => Outcome crypto state h g target r) :
    Host.Ends crypto format (requireValidated >>= f) h fun r g =>
      Outcome crypto state h g (if !opened state h.memory.session then none else target) r := by
  refine ends_requireValidated hmem (fun hopen => ?_) fun hclosed => ?_
  · rw [hopen]
    exact hf
  · rw [hclosed]
    exact .stays _ hmem rfl rfl

include hb

theorem ends_cmdPut (data : Bytes) : Host.Ends crypto format (cmdPut data) h fun r g =>
    Outcome crypto state h g (if !opened state h.memory.session then none
      else putEdit state data) r := by
  refine ends_gated hmem ?_
  unfold putEdit
  refine .orStatus (fun req hreq => ?_) fun sw hsw => ?_
  · rw [hreq]
    refine .stateMut hmem ?_
    simp only
    split
    · refine .setState ?_
      refine ends_persist_ok hb ?_ ?_
      · exact ⟨rfl, rfl, rfl, rfl⟩
      · rfl
    · exact .refuse (.stays _ hmem rfl rfl)
  · rw [hsw]
    exact .stays _ hmem rfl rfl

theorem ends_cmdDelete (data : Bytes) : Host.Ends crypto format (cmdDelete data) h fun r g =>
    Outcome crypto state h g (if !opened state h.memory.session then none
      else deleteEdit state data) r := by
  refine ends_gated hmem ?_
  unfold deleteEdit
  refine .orStatus (fun name hname => ?_) fun sw hsw => ?_
  · rw [hname]
    refine .stateMut hmem ?_
    simp only
    split
    · refine .setState ?_
      refine ends_persist_ok hb ?_ ?_
      · exact ⟨rfl, rfl, rfl, rfl⟩
      · rfl
    · exact .refuse (.stays _ hmem rfl rfl)
  · rw [hsw]
    exact .stays _ hmem rfl rfl

theorem ends_cmdRename (data : Bytes) : Host.Ends crypto format (cmdRename data) h fun r g =>
    Outcome crypto state h g (if !opened state h.memory.session then none
      else renameEdit state data) r := by
  refine ends_gated hmem ?_
  unfold renameEdit
  refine .orStatus (fun names hnames => ?_) fun sw hsw => ?_
  · obtain ⟨current, new⟩ := names
    rw [hnames]
    refine .stateMut hmem ?_
    simp only
    split
    · split
      · exact .refuse (.stays _ hmem rfl rfl)
      · refine .setState ?_
        refine ends_persist_ok hb ?_ ?_
        · exact ⟨rfl, rfl, rfl, rfl⟩
        · rfl
    · exact .refuse (.stays _ hmem rfl rfl)
  · rw [hsw]
    exact .stays _ hmem rfl rfl

theorem ends_cmdSetCode (data : Bytes) :
    Host.Ends crypto format (cmdSetCode crypto data) h fun r g =>
      Outcome crypto state h g (if !opened state h.memory.session then none
        else setCodeEdit crypto state (h.rng 0) data) r := by
  refine ends_gated hmem ?_
  unfold setCodeEdit
  refine .orStatus (fun tlvs htlvs => ?_) fun sw hsw => ?_
  · refine .orStatus (fun request hrequest => ?_) fun sw hsw => ?_
    · obtain ⟨key, rest⟩ := request
      have hparsed : (parseTlvs data >>= fun tlvs => needTag tlvs 0x73) = .ok (key, rest) := by
        rw [htlvs]
        exact hrequest
      rw [hparsed]
      simp only
      split
      · refine .orStatus (fun _ hrest => ?_) fun sw hsw => ?_
        · unfold requireNoRemainingTlvs at hrest
          split at hrest
          · next hnil =>
              rw [if_pos hnil]
              refine .stateMut hmem (.setState (.modifySession ?_))
              refine ends_persist_ok hb ?_ ?_
              · exact ⟨rfl, rfl, rfl, rfl⟩
              · rfl
          · cases hrest
        · unfold requireNoRemainingTlvs at hsw
          split at hsw
          · cases hsw
          · next hcons =>
              rw [if_neg hcons]
              exact .stays _ hmem rfl rfl
      · refine .orStatus (fun access haccess => ?_) fun sw hsw => ?_
        · rw [haccess]
          refine .draw ?_
          refine .stateMut (h := { h with rng := fun n => h.rng (n + 1) }) hmem (.setState ?_)
          refine ends_persist_ok hb ?_ ?_
          · exact ⟨rfl, rfl, rfl, rfl⟩
          · rfl
        · rw [hsw]
          exact .stays _ hmem rfl rfl
    · have hparsed : (parseTlvs data >>= fun tlvs => needTag tlvs 0x73) = .error sw := by
        rw [htlvs]
        exact hsw
      rw [hparsed]
      exact .stays _ hmem rfl rfl
  · have hparsed : (parseTlvs data >>= fun tlvs => needTag tlvs 0x73) = .error sw := by
      rw [hsw]
      rfl
    rw [hparsed]
    exact .stays _ hmem rfl rfl

theorem ends_cmdReset (p1 p2 : UInt8) : Host.Ends crypto format (cmdReset p1 p2) h fun r g =>
    Outcome crypto state h g
      (if p1 = 0xDE ∧ p2 = 0xAD then some ⟨factoryState (h.rng 0), 1, false⟩ else none) r := by
  refine .require (fun hmagic => ?_) fun hmagic => ?_
  · rw [if_pos (of_decide_eq_true hmagic)]
    refine .draw (.setState (.modifySession ?_))
    refine ends_persist_ok hb ?_ ?_
    · exact ⟨rfl, rfl, rfl, rfl⟩
    · rfl
  · rw [if_neg (of_decide_eq_false hmagic)]
    exact .stays _ hmem rfl rfl

omit hb in
theorem ends_cmdList : Host.Ends crypto format cmdList h fun r g =>
    Outcome crypto state h g none r := by
  refine ends_requireValidated hmem (fun _ => ?_) fun _ => .stays _ hmem rfl rfl
  refine .stateMut hmem (.orFault (fun out _ => ?_) fun e _ => .stays _ hmem rfl rfl)
  exact .stays _ hmem rfl rfl

omit hb in
theorem ends_cmdCalculateAll (p2 : UInt8) (data : Bytes) :
    Host.Ends crypto format (cmdCalculateAll crypto p2 data) h fun r g =>
      Outcome crypto state h g none r := by
  refine ends_requireValidated hmem (fun _ => ?_) fun _ => .stays _ hmem rfl rfl
  refine .orStatus (fun challenge _ => ?_) fun sw _ => .stays _ hmem rfl rfl
  refine .stateMut hmem (.orFault (fun out _ => ?_) fun e _ => .stays _ hmem rfl rfl)
  exact .stays _ hmem rfl rfl

end

/-! ## Codes -/

theorem length_hmacByAlgorithm (crypto : AppletCrypto) (algorithm : OathAlgorithm)
    (key data : Bytes) :
    (hmacByAlgorithm crypto algorithm key data).length = algorithm.digestLen := by
  cases algorithm with
  | sha1 => exact crypto.length_hmacSha1 key data
  | sha256 => exact crypto.prims.length_hmacSha256 key data
  | sha512 => exact crypto.length_hmacSha512 key data

theorem digestLen_le (algorithm : OathAlgorithm) :
    20 ≤ algorithm.digestLen ∧ algorithm.digestLen ≤ 64 := by
  cases algorithm <;> decide

theorem pushTlv_ok {value : Bytes} (h : value.length ≤ 255) (out : Bytes) (tag : UInt8) :
    ∃ out', pushTlv out tag value = .ok out' := ⟨_, if_pos h⟩

/-- A digest has the four bytes that `dynamic_truncate` takes. -/
theorem dynamicTruncate_ok {digest : Bytes} (h : 20 ≤ digest.length) :
    ∃ code, dynamicTruncate digest = .ok code ∧ code.length ≤ 4 := by
  unfold dynamicTruncate
  cases hlast : digest.getLast? with
  | none =>
      rw [List.getLast?_eq_none_iff.mp hlast] at h
      simp at h
  | some last =>
      have hoffset : (last &&& 0x0F).toNat < 16 := by
        rw [UInt8.toNat_and]
        exact Nat.lt_of_le_of_lt Nat.and_le_right (by decide)
      simp only
      rw [if_pos (by omega)]
      exact ⟨_, rfl, List.length_take_le _ _⟩

theorem pushCode_ok {digest : Bytes} (h : 20 ≤ digest.length ∧ digest.length ≤ 64)
    (truncated : Bool) (digits : UInt8) :
    ∃ out, pushCode [] truncated digits digest = .ok out := by
  unfold pushCode
  cases truncated with
  | true =>
      obtain ⟨code, hcode, hlen⟩ := dynamicTruncate_ok h.1
      rw [if_pos rfl, hcode]
      exact pushTlv_ok (by rw [List.length_cons]; omega) _ _
  | false =>
      rw [if_neg Bool.false_ne_true]
      exact pushTlv_ok (by rw [List.length_cons]; omega) _ _

section

variable [FallibleBackend β] {crypto : AppletCrypto} {state : OathState}
  {h : Host β OathState Session} (hmem : h.memory.state = some state)

include hmem

theorem ends_cmdCalculate (hb : h.storage.backend.isSome) (p2 : UInt8) (data : Bytes) :
    Host.Ends crypto format (cmdCalculate crypto p2 data) h fun r g =>
      Outcome crypto state h g (if !opened state h.memory.session then none
        else calculateEdit state p2 data) r := by
  refine ends_gated hmem ?_
  unfold calculateEdit
  refine .orStatus (fun request hrequest => ?_) fun sw hsw => ?_
  · obtain ⟨name, challenge⟩ := request
    rw [hrequest]
    refine .stateMut hmem (.orRefuse (fun cred hcred => ?_) fun hcred => ?_)
    · simp only [hcred, Option.bind_some]
      refine .orStatus (fun moved hmoved => ?_) fun sw hsw => ?_
      · obtain ⟨signed, next⟩ := moved
        rw [hmoved]
        have hlen := digestLen_le cred.algorithm
        rw [← length_hmacByAlgorithm crypto cred.algorithm cred.secret signed] at hlen
        obtain ⟨out, hout⟩ := pushCode_ok hlen (p2 = 0x01) cred.digits
        cases next with
        | none =>
            simp only [advanceCounter]
            rw [hout]
            exact .stays _ hmem rfl rfl
        | some next =>
            have hpoised : Poised ⟨{ state with
                credentials := state.credentials.setCounter name next }, 0, true⟩ h
              { h with memory := ⟨some { state with
                credentials := state.credentials.setCounter name next }, h.memory.session⟩ } :=
              ⟨rfl, rfl, rfl, rfl⟩
            have htaken := hpoised.accepts_eq crypto
            refine .bind (.stateMut hmem (.setState (.tryPersist rfl ?_ (fun g hg => ?_)
              fun g hg => ?_)))
            · exact hb
            · refine .pure ?_
              rw [hout]
              obtain ⟨blob, hheld, hseal⟩ := hg.held
              exact .written _ _ (htaken ▸ hg.accepted) (congrArg Memory.state hg.memory) hg.saved
                hg.backend ⟨blob, _, hheld, hseal⟩
            · refine .setState (.refuse (.failed _ (htaken ▸ hg.refused) ?_ hg.saved hg.backend
                hg.held))
              rw [OathCredentials.setCounter_setCounter _ _ hcred]
              rfl
      · rw [hsw]
        exact .stays _ hmem rfl rfl
    · simp only [hcred, Option.bind_none]
      exact .stays _ hmem rfl rfl
  · rw [hsw]
    exact .stays _ hmem rfl rfl

theorem ends_cmdValidate (hb : h.storage.backend.isSome) (data : Bytes) :
    Host.Ends crypto format (cmdValidate crypto data) h fun r g =>
      Outcome crypto state h g (validateEdit crypto state data) r := by
  refine .bind (.stateMut hmem ?_)
  unfold validateEdit
  cases haccess : state.access with
  | none => exact .stays _ hmem rfl rfl
  | some access =>
      cases hpending : state.pendingChallenge with
      | none => exact .stays _ hmem rfl rfl
      | some pending =>
          refine .orStatus (fun request hrequest => ?_) fun sw hsw => ?_
          · obtain ⟨response, challenge⟩ := request
            rw [hrequest]
            simp only
            refine .require (fun hright => ?_) fun hwrong => ?_
            · rw [if_pos (of_decide_eq_true hright)]
              refine .pure (.setState ?_)
              have hlen := (digestLen_le access.algorithm).2
              rw [← length_hmacByAlgorithm crypto access.algorithm access.key challenge.1] at hlen
              obtain ⟨out, hout⟩ := pushTlv_ok (Nat.le_trans hlen (by decide)) [] 0x75
              refine ends_persist hb ?_ ?_ fun t => ?_
              · exact ⟨rfl, rfl, rfl, rfl⟩
              · rfl
              · refine .modifySession ?_
                rw [hout]
                exact ⟨⟨_, rfl⟩, rfl, rfl, rfl⟩
            · rw [if_neg (of_decide_eq_false hwrong)]
              exact .stays _ hmem rfl rfl
          · rw [hsw]
            exact .stays _ hmem rfl rfl

theorem ends_cmdSendRemaining (apdu : Apdu) :
    Host.Ends crypto format (cmdSendRemaining apdu) h fun r g =>
      Outcome crypto state h g none r := by
  refine ends_requireValidated hmem (fun _ => .session ?_) fun _ => .stays _ hmem rfl rfl
  rcases h.memory.session.remaining with _ | ⟨buffer, pos⟩
  · exact .stays _ hmem rfl rfl
  · refine .ite (fun _ => .modifySession ?_) fun _ => .ite (fun _ => .modifySession ?_) fun _ =>
      .modifySession ?_
    all_goals exact .stays _ hmem rfl rfl

theorem ends_dispatch (hb : h.storage.backend.isSome) {apdu : Apdu} (hcla : apdu.cla = 0) :
    Host.Ends crypto format (dispatch crypto apdu) h fun r g =>
      Outcome crypto state h g (edited crypto state h.memory.session (h.rng 0) apdu) r := by
  unfold dispatch edited
  rw [if_neg (not_not.mpr hcla)]
  refine .ite (fun hins => ?_) fun hput => .ite (fun hins => ?_) fun hdelete =>
    .ite (fun hins => ?_) fun hcode => .ite (fun hins => ?_) fun hreset =>
    .ite (fun hins => ?_) fun hrename => .ite (fun hins => ?_) fun hlist =>
    .ite (fun hins => ?_) fun hcalculate => .ite (fun hins => ?_) fun hvalidate =>
    .ite (fun hins => ?_) fun hall => ?_
  · rw [hins]
    exact ends_cmdPut hmem hb apdu.data
  · rw [hins]
    exact ends_cmdDelete hmem hb apdu.data
  · rw [hins]
    exact ends_cmdSetCode hmem hb apdu.data
  · rw [hins]
    exact ends_cmdReset hmem hb apdu.p1 apdu.p2
  · rw [hins]
    exact ends_cmdRename hmem hb apdu.data
  · rw [hins]
    refine (ends_cmdList hmem).mono fun r g hout => ?_
    show Outcome crypto state h g (if !opened state h.memory.session then none else none) r
    rw [ite_self]
    exact hout
  · rw [hins]
    exact ends_cmdCalculate hmem hb apdu.p2 apdu.data
  · rw [hins]
    exact ends_cmdValidate hmem hb apdu.data
  · rw [hins]
    refine (ends_cmdCalculateAll hmem apdu.p2 apdu.data).mono fun r g hout => ?_
    show Outcome crypto state h g (if !opened state h.memory.session then none else none) r
    rw [ite_self]
    exact hout
  · rw [if_neg hreset, if_neg hvalidate, if_neg hput, if_neg hdelete, if_neg hcode, if_neg hrename,
      if_neg hcalculate, ite_self]
    exact .refuse (.stays _ hmem rfl rfl)

/-- How a command of the OATH applet ends. -/
theorem ends_process (hb : h.storage.backend.isSome) (apdu : Apdu) :
    Host.Ends crypto format (process crypto apdu) h fun r g =>
      Outcome crypto state h g (edited crypto state h.memory.session (h.rng 0) apdu) r := by
  refine .require (fun hcla => ?_) fun hcla => ?_
  · replace hcla := of_decide_eq_true hcla
    refine .ite (fun hins => ?_) fun _ => .attempt hmem hb ((ends_dispatch hmem hb hcla).mono ?_)
    · have hnone : edited crypto state h.memory.session (h.rng 0) apdu = none := by
        unfold edited
        rw [if_neg (not_not.mpr hcla), hins]
        exact ite_self none
      rw [hnone]
      exact ends_cmdSendRemaining hmem apdu
    · rintro (fault | response) g hout
      · cases fault with
        | status sw => exact .modifySession (.refuse (hout.of_session rfl rfl rfl))
        | panic => exact hout
        | hang => exact hout
      · exact .modifySession (.pure (hout.of_session rfl rfl rfl))
  · have hnone : edited crypto state h.memory.session (h.rng 0) apdu = none := by
      unfold edited
      rw [if_pos (of_decide_eq_false hcla)]
    rw [hnone]
    exact .stays _ hmem rfl rfl

/-! ## SELECT -/

omit hmem in
/-- What SELECT is to persist: another challenge for the access code. -/
def rotated (state : OathState) (entropy : Entropy) : Option Edit :=
  state.access.map fun access =>
    ⟨withAccess state access (entropy.bytes 8) (challengeOk_bytes entropy), 1, false⟩

omit [FallibleBackend β] in
/-- The answer to SELECT changes nothing. -/
theorem ends_selectResponse : Host.Ends crypto format selectResponse h fun _ g => g = h := by
  refine .tryLoad hmem (.loadedState hmem ?_)
  unfold Host.Ends orFault
  rcases selectPayload state with _ | _
  · rfl
  · rfl

omit hmem in
/-- The memory of the applet before does not matter. -/
theorem Outcome.of_memory {g : Host β OathState Session} {memory : Memory OathState Session}
    {target : Option Edit} {r : Except Fault ResponseData}
    (hout : Outcome crypto state { h with memory := memory } g target r) :
    Outcome crypto state h g target r := by
  cases hout with
  | stays _ memory saved storage => exact .stays _ memory saved storage
  | written edit response taken memory saved backend held =>
      exact .written edit response taken memory saved backend held
  | failed edit refused memory saved backend held =>
      exact .failed edit refused memory saved backend held

omit hmem in
theorem Outcome.loaded {g : Host β OathState Session} {target : Option Edit}
    {r : Except Fault ResponseData} (hout : Outcome crypto state h g target r) :
    ∃ new, g.memory.state = some new := by
  cases hout with
  | stays _ memory _ _ => exact ⟨_, memory⟩
  | written _ _ _ memory _ _ _ => exact ⟨_, memory⟩
  | failed _ _ memory _ _ _ => exact ⟨_, memory⟩

/-- The challenge of an access code is another one, and persisted. -/
theorem ends_rotate (hb : h.storage.backend.isSome) :
    Host.Ends crypto format (do ensureLoaded; rotateChallengeForSelect) h fun _ g =>
      ∃ r, Outcome crypto state h g (rotated state (h.rng 0)) r := by
  have hcode : locked h.memory = state.access.isSome := by
    unfold locked
    rw [hmem]
    rfl
  refine .ensureLoaded hmem (.inspect ?_)
  rw [hcode]
  unfold rotated
  cases haccess : state.access with
  | none => exact .pure ⟨.ok (.ok []), .stays _ hmem rfl rfl⟩
  | some access =>
      refine .draw (.stateMut (h := { h with rng := fun n => h.rng (n + 1) }) hmem ?_)
      simp only [haccess]
      have hpoised : Poised ⟨withAccess state access ((h.rng 0).bytes 8) (challengeOk_bytes _), 1,
          false⟩ h { h with
            rng := fun n => h.rng (n + 1)
            memory := ⟨some (withAccess state access ((h.rng 0).bytes 8) (challengeOk_bytes _)),
              h.memory.session⟩ } := ⟨rfl, rfl, rfl, rfl⟩
      have htaken := hpoised.accepts_eq crypto
      refine .setState (.tryPersist rfl ?_ (fun g hg => ?_) fun g hg => ?_)
      · exact hb
      · obtain ⟨blob, hheld, hseal⟩ := hg.held
        exact .pure ⟨_, .written _ (.ok []) (htaken ▸ hg.accepted)
          (congrArg Memory.state hg.memory) hg.saved hg.backend ⟨blob, _, hheld, hseal⟩⟩
      · exact .refuse ⟨_, .failed _ (htaken ▸ hg.refused) (congrArg Memory.state hg.memory)
          hg.saved hg.backend hg.held⟩

/-- How a SELECT of the OATH applet ends. -/
theorem ends_select (hb : h.storage.backend.isSome) :
    Host.Ends crypto format (select >>= fun _ => selectResponse) h fun _ g =>
      ∃ r, Outcome crypto state h g (rotated state (h.rng 0)) r := by
  have hrotate : Host.Ends crypto format (do ensureLoaded; rotateChallengeForSelect) { h with
      memory := ⟨h.memory.state, { h.memory.session with validated := false }⟩ } _ :=
    ends_rotate hmem hb
  refine .bind (.modifySession (hrotate.mono fun result g hout => ?_))
  have hout' : ∃ r, Outcome crypto state h g (rotated state (h.rng 0)) r :=
    hout.imp fun r hout => hout.of_memory
  cases result with
  | error e => exact hout'
  | ok u =>
      obtain ⟨r, hout⟩ := hout'
      obtain ⟨new, hnew⟩ := hout.loaded
      refine (ends_selectResponse hnew).mono fun _ t ht => ?_
      rw [ht]
      exact ⟨r, hout⟩

end

/-! ## Errors -/

section

variable [AtomicBackend β]

/-- The state in memory is the one that is persisted. -/
structure Synced (crypto : AppletCrypto) (state : OathState) (h : Host β OathState Session) :
    Prop where
  durable : h.storage.Durable
  memory : h.memory.state = some state
  stored : Host.storedState crypto format h.storage = some (state, false)

/-- After an error, memory and storage hold the state from before; after a success, the same state
as each other. -/
def ErrorAtomic (crypto : AppletCrypto) (state : OathState) (g : Host β OathState Session) :
    Except Fault ResponseData → Prop
  | .ok _ => ∃ new, Synced crypto new g
  | .error _ => Synced crypto state g

/-- **Errors of the OATH commands.** Over a state that is persisted, a command is atomic exactly
when what it is to persist, if anything, is taken by the storage, or is put back, or is what was
there. -/
theorem error_atomic_iff {crypto : AppletCrypto} (haead : AeadSound crypto.prims)
    {state : OathState} {h : Host β OathState Session} (hsync : Synced crypto state h)
    (apdu : Apdu) :
    Host.Ends crypto format (process crypto apdu) h (fun r g => ErrorAtomic crypto state g r) ↔
      ∀ edit ∈ edited crypto state h.memory.session (h.rng 0) apdu,
        taken crypto h edit = true ∨ edit.undone = true ∨ edit.state = state := by
  obtain ⟨hd, hmem, hstored⟩ := hsync
  have hd' : ((Host.perform crypto format (process crypto apdu)).run h).2.storage.Durable :=
    (Host.keeps_command (StorageEngine.confined_store format.storageKey) (process crypto apdu) h
      hd).1
  have hends : Host.Ends crypto format (process crypto apdu) h _ :=
    ends_process hmem hd.backend apdu
  unfold Host.Ends at hends ⊢
  generalize (Host.perform crypto format (process crypto apdu)).run h = out at hends hd' ⊢
  obtain ⟨result, g⟩ := out
  replace hd' : g.storage.Durable := hd'
  generalize edited crypto state h.memory.session (h.rng 0) apdu = target at hends ⊢
  cases hends with
  | stays _ memory saved storage =>
      have hsame : Synced crypto state g := ⟨hd', memory, by rw [storage]; exact hstored⟩
      refine iff_of_true ?_ (fun edit hedit => by cases hedit)
      cases result with
      | ok response => exact ⟨state, hsame⟩
      | error fault => exact hsame
  | written edit response htaken memory saved backend held =>
      obtain ⟨blob, entropy, hheld, hseal⟩ := held
      refine iff_of_true ?_ fun other hother => ?_
      · exact ⟨edit.state, hd', memory, Host.storedState_of_held haead hd' hheld hseal⟩
      · cases hother
        exact .inl htaken
  | failed edit refused memory saved backend held =>
      have hstored' : Host.storedState crypto format g.storage = some (state, false) :=
        (Host.storedState_of_heldEntry hd hd' held).trans hstored
      constructor
      · rintro ⟨-, hmemory, -⟩ other hother
        cases hother
        by_cases hundone : edit.undone = true
        · exact .inr (.inl hundone)
        · rw [memory, if_neg hundone] at hmemory
          exact .inr (.inr (Option.some.inj hmemory))
      · intro hcond
        refine ⟨hd', ?_, hstored'⟩
        rw [memory]
        obtain htaken | hundone | hsame := hcond edit rfl
        · rw [refused] at htaken
          cases htaken
        · rw [if_pos hundone]
        · rw [hsame, ite_self]

end

/-! ## A refused PUT -/

/-- What ChaCha20-Poly1305 makes of a factory state, and of that state with a credential `a`. -/
def putAead : KnownAead where
  rows := [
    .of 0x02 0x04 (Bytes.beBytes 21 0x011003030303030303030303030303030303000000)
      (Bytes.beBytes 37
        0x1d42d7cfdfe433ba4251d5d0f61f8ca6d97b1f0196e99a3e2cf8571dd69c97b2e2ff50cec4),
    .of 0x02 0x09
      (Bytes.beBytes 49 (0x011003030303030303030303030303030303000001016121060000000000 * 2 ^ 152 +
        0x000000000e0102030405060708090a0b0c0d0e))
      (Bytes.beBytes 65
        (0x136713cecafe12e4afbac8695852d25ad6637cc0bc1ac15f3c1fcc190975c262 * 2 ^ 264
        + 0x8704a4d8135009d101a7c8ff39beb3d99d9095b6cbfb71606840cee980eb285a8c))]
  opens := by decide +kernel
  one_key := by decide +kernel
  apart := by decide +kernel
  ne_nil := by decide +kernel

/-- The engine of a card with the master key `02..02`. -/
def putCrypto : AppletCrypto := putAead.crypto (List.replicate 32 0x02) KnownAead.length_masterKey

theorem sound_putCrypto : AeadSound putCrypto.prims := KnownAead.sound _ _

/-- The factory state with the salt `03..03`. -/
def putState : OathState := factoryState fun _ => 0x03

/-- Its blob on a medium with these faults to come. -/
def putStorage (faults : List Bool) : StorageEngine FaultyBackend :=
  .withBackend unusedCodec
    ⟨(∅ : KvMap).insert "sys:oath" (List.replicate 12 0x04 ++ Bytes.beBytes 37
      0x1d42d7cfdfe433ba4251d5d0f61f8ca6d97b1f0196e99a3e2cf8571dd69c97b2e2ff50cec4), faults⟩

/-- The applet after a boot over this medium. -/
def putHost (faults : List Bool) : Host FaultyBackend OathState Session :=
  ((Host.ensureLoaded putCrypto format).run ⟨putStorage faults, KnownAead.constantDraws 0x09,
    ⟨none, .fresh⟩, none⟩).2

/-- PUT of a TOTP credential named `a`. -/
def putApdu : Apdu :=
  ⟨0, 0x01, 0, 0,
    [0x71, 0x01, 0x61, 0x73, 16, 0x21, 0x06, 1, 2, 3, 4, 5, 6, 7, 8, 9, 10, 11, 12, 13,
    14], none⟩

theorem synced_putHost (faults : List Bool) : Synced putCrypto putState (putHost faults) := by
  have hd : (putStorage faults).Durable := StorageEngine.durable_withBackend _ _
  have hheld : (putStorage faults).heldEntry format.storageKey = some (List.replicate 12 0x04 ++
      Bytes.beBytes 37
        0x1d42d7cfdfe433ba4251d5d0f61f8ca6d97b1f0196e99a3e2cf8571dd69c97b2e2ff50cec4) := by
    unfold putStorage StorageEngine.heldEntry
    rw [(StorageEngine.withBackend_eq _ _).1]
    exact Std.ExtTreeMap.getElem?_insert_self
  have hseal : Host.sealState putCrypto format putState (fun _ => 0x04) =
      .ok (List.replicate 12 0x04 ++ Bytes.beBytes 37
        0x1d42d7cfdfe433ba4251d5d0f61f8ca6d97b1f0196e99a3e2cf8571dd69c97b2e2ff50cec4) := by
    decide +kernel
  have hstored := Host.storedState_of_held sound_putCrypto hd hheld hseal
  have hload := Host.ensureLoaded_found (h := ⟨putStorage faults, KnownAead.constantDraws 0x09,
    ⟨none, Session.fresh⟩, none⟩) rfl hstored
  unfold putHost
  rw [hload]
  exact ⟨hd, rfl, hstored⟩

/-- A PUT that the storage refuses is answered with an error, and its credential stays in memory. -/
theorem put_refused_stays : AeadSound putCrypto.prims ∧ Synced putCrypto putState (putHost [true]) ∧
    ¬Host.Ends putCrypto format (process putCrypto putApdu) (putHost [true])
      (fun r g => ErrorAtomic putCrypto putState g r) := by
  refine ⟨sound_putCrypto, synced_putHost _, fun hatomic => ?_⟩
  have hrun : Host.Ends putCrypto format (process putCrypto putApdu) (putHost [true]) fun r g =>
      r.isOk = false ∧ (g.memory.state.map fun s => s.credentials.map.keys) = some [[0x61]] := by
    unfold Host.Ends
    decide +kernel
  unfold Host.Ends at hatomic hrun
  generalize (Host.perform putCrypto format (process putCrypto putApdu)).run (putHost [true]) = out
    at hatomic hrun
  obtain ⟨_ | response, g⟩ := out
  · obtain ⟨-, hmem, -⟩ := hatomic
    obtain ⟨-, hkeys⟩ := hrun
    rw [hmem] at hkeys
    exact absurd hkeys (by decide +kernel)
  · cases hrun.1

theorem error_atomic_iff_put : Host.Ends putCrypto format (process putCrypto putApdu) (putHost [])
    (fun r g => ErrorAtomic putCrypto putState g r) := by
  refine (error_atomic_iff sound_putCrypto (synced_putHost _) putApdu).mpr fun edit hedit => ?_
  have htaken : (edited putCrypto putState (putHost []).memory.session ((putHost []).rng 0)
      putApdu).all (fun edit => taken putCrypto (putHost []) edit) = true := by decide +kernel
  rw [hedit] at htaken
  exact .inl htaken

end Oath

end OpenKey
