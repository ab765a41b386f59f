import OpenKey.Device.OathEdits
import OpenKey.Device.OathGate

/-!
# The counters of HOTP credentials

**Runs (`Run`).** The applet is booted on a medium whose reads and writes may fail, takes SELECTs
and commands, and may be booted again at any time, under any master key, on what the medium holds
then. A `Ledger` follows each credential from the PUT that made it, through RENAME and through the
medium, and lists the counters of the HOTP codes that were shown for it.

**No counter is shown twice (`counters_never_reused`)**, in every run without a CALCULATE that names
the greatest counter on an open applet: there the source saturates, and the counter does not move
on. The invariant (`Inv`) is that in memory and in every state that the medium may open to, the
counter of a credential is beyond all counters shown for it. What is shown is read from the request
and the state; the answer is the code of that counter.
-/

namespace OpenKey

open Command

set_option autoImplicit false

namespace Oath

/-! ## What an edit does to the credentials -/

/-- What an edit does to the credentials, and for which instruction. -/
inductive Touches (state : OathState) (apdu : Apdu) (edit : Edit) : Prop
  | put (req : PutRequest) (ins : apdu.ins = insPut) (parsed : parsePut apdu.data = .ok req)
      (undone : edit.undone = false)
      (credentials : ∀ name : Bytes, edit.state.credentials.map[name]? =
        if name = req.name then some req.cred else state.credentials.map[name]?)
  | rename (current new : Bytes) (hnew : NameOk new) (ins : apdu.ins = insRename)
      (parsed : parseRename apdu.data = .ok (current, ⟨new, hnew⟩))
      (undone : edit.undone = false) (absent : state.credentials.map[new]? = none)
      (credentials : ∀ name : Bytes, edit.state.credentials.map[name]? =
        if name = new then state.credentials.map[current]?
        else if name = current then none else state.credentials.map[name]?)
  | count (name challenge signed : Bytes) (cred : OathCredential) (next : UInt64)
      (ins : apdu.ins = insCalculate)
      (parsed : parseCalculate apdu.p2 apdu.data = .ok (name, challenge))
      (found : state.credentials.map[name]? = some cred)
      (moved : movingFactor cred challenge = .ok (signed, some next)) (undone : edit.undone = true)
      (credentials : ∀ other : Bytes, edit.state.credentials.map[other]? =
        if other = name then some { cred with hotpCounter := next }
        else state.credentials.map[other]?)
  | other (put : apdu.ins ≠ insPut) (rename : apdu.ins ≠ insRename)
      (calculate : apdu.ins ≠ insCalculate) (undone : edit.undone = false)
      (credentials : ∀ (name : Bytes) cred, edit.state.credentials.map[name]? = some cred →
        state.credentials.map[name]? = some cred)

section

variable {crypto : AppletCrypto} {state : OathState} {session : Session} {entropy : Entropy}
  {apdu : Apdu} {edit : Edit}

theorem touches_put (hins : apdu.ins = insPut) (h : putEdit state apdu.data = some edit) :
    Touches state apdu edit := by
  unfold putEdit at h
  split at h
  · next req hreq =>
      split at h
      · next hroom =>
          cases h
          exact .put req hins hreq rfl fun name =>
            state.credentials.getElem?_insert req.name name req.cred req.name_ok hroom
      · cases h
  · cases h

theorem touches_rename (hins : apdu.ins = insRename) (h : renameEdit state apdu.data = some edit) :
    Touches state apdu edit := by
  unfold renameEdit at h
  split at h
  · next current new hparsed =>
      split at h
      · next hcurrent =>
          split at h
          · cases h
          · next hnew =>
              cases h
              refine .rename current new.1 new.2 hins hparsed rfl
                (Std.ExtTreeMap.getElem?_eq_none hnew) fun name => ?_
              show (renamed state.credentials current new.1 hcurrent new.2).map[name]? = _
              rw [renamed, OathCredentials.getElem?_insert, OathCredentials.getElem?_erase,
                Std.ExtTreeMap.getElem?_eq_some_getElem hcurrent]
              rfl
      · cases h
  · cases h

theorem touches_calculate (hins : apdu.ins = insCalculate)
    (h : calculateEdit state apdu.p2 apdu.data = some edit) : Touches state apdu edit := by
  unfold calculateEdit at h
  split at h
  · next name challenge hparsed =>
      obtain ⟨cred, hcred, h⟩ := Option.bind_eq_some_iff.mp h
      split at h
      · next signed next hmoved =>
          cases h
          refine .count name challenge signed cred next hins hparsed hcred hmoved
            rfl fun other => ?_
          rw [OathCredentials.getElem?_setCounter, hcred]
          rfl
      · cases h
  · cases h

/-- What a command is to persist, by its instruction. -/
theorem touches_of_edited (h : edited crypto state session entropy apdu = some edit) :
    Touches state apdu edit := by
  unfold edited at h
  split at h
  · cases h
  split at h
  · next hins =>
      split at h
      · cases h
        refine .other (by rw [hins]; decide) (by rw [hins]; decide) (by rw [hins]; decide) rfl ?_
        intro name cred hcred
        have hnone : (factoryState entropy).credentials.map[name]? = none :=
          Std.ExtTreeMap.getElem?_empty
        rw [hnone] at hcred
        cases hcred
      · cases h
  split at h
  · next hins =>
      unfold validateEdit at h
      split at h
      · split at h
        · split at h
          · cases h
            exact .other (by rw [hins]; decide) (by rw [hins]; decide) (by rw [hins]; decide) rfl
              fun _ _ hcred => hcred
          · cases h
        · cases h
      · cases h
  split at h
  · cases h
  split at h
  · next hins => exact touches_put hins h
  split at h
  · next hins =>
      unfold deleteEdit at h
      split at h
      · split at h
        · cases h
          refine .other (by rw [hins]; decide) (by rw [hins]; decide) (by rw [hins]; decide) rfl ?_
          intro name cred hcred
          rw [OathCredentials.getElem?_erase] at hcred
          split at hcred
          · cases hcred
          · exact hcred
        · cases h
      · cases h
  split at h
  · next hins =>
      have hother : ∀ {edit : Edit}, edit.undone = false →
          edit.state.credentials = state.credentials → Touches state apdu edit := by
        intro edit hundone hsame
        refine .other (by rw [hins]; decide) (by rw [hins]; decide)
          (by rw [hins]; decide) hundone ?_
        rw [hsame]
        exact fun _ _ hcred => hcred
      unfold setCodeEdit at h
      split at h
      · split at h
        · split at h
          · cases h
            exact hother rfl rfl
          · cases h
        · split at h
          · cases h
            exact hother rfl rfl
          · cases h
      · cases h
  split at h
  · next hins => exact touches_rename hins h
  split at h
  · next hins => exact touches_calculate hins h
  · cases h

end

/-! ## Runs -/

/-- Where a credential comes from: the medium of the first boot, or a PUT. -/
inductive Origin
  | found (name : Bytes)
  | put (time : Nat)
  deriving DecidableEq

/-- What a run has done so far. -/
structure Ledger where
  /-- How many events there were. -/
  time : Nat
  /-- Where the credential under a name comes from, in memory. -/
  origin : Bytes → Origin
  /-- The same on the medium. -/
  kept : Bytes → Origin
  /-- The HOTP codes shown: whose, and the counter they were computed with. -/
  shown : List (Origin × Nat)

/-- The ledger of a first boot. -/
def Ledger.first : Ledger := ⟨0, .found, .found, []⟩

namespace Machine

variable {β : Type} [StorageBackend β]

/-- What a command is to persist. -/
def edit (m : Machine β) (apdu : Apdu) : Option Edit :=
  m.current.bind fun state =>
    edited m.crypto state m.host.memory.session (m.host.rng 0) apdu

/-- Where the credentials in memory come from after a command: PUT makes a new one, and RENAME takes
it to another name. -/
def origins (m : Machine β) (l : Ledger) (apdu : Apdu) : Bytes → Origin :=
  if (m.edit apdu).isSome then
    if apdu.ins = insPut then
      match parsePut apdu.data with
      | .ok req => Function.update l.origin req.name (.put l.time)
      | .error _ => l.origin
    else if apdu.ins = insRename then
      match parseRename apdu.data with
      | .ok (current, new) => Function.update l.origin new.1 (l.origin current)
      | .error _ => l.origin
    else l.origin
  else l.origin

/-- The name and the counter of the HOTP code that a CALCULATE shows, if it succeeds. -/
def shows (m : Machine β) (apdu : Apdu) : Option (Bytes × Nat) :=
  if apdu.cla = 0 ∧ apdu.ins = insCalculate ∧ (m.respond apdu).1.isOk then
    match parseCalculate apdu.p2 apdu.data with
    | .ok (name, challenge) =>
        m.current.bind fun state => state.credentials.map[name]?.bind fun cred =>
          match movingFactor cred challenge with
          | .ok (signed, some _) => some (name, Bytes.beNat signed)
          | _ => none
    | .error _ => none
  else none

/-- The machine with nothing persisted yet, so that `saved` tells whether the next event persists
its state. -/
def unsaved (m : Machine β) : Machine β := { m with host := { m.host with saved := none } }

/-- Where the credentials in memory come from after an event. -/
def originsAfter (m : Machine β) (l : Ledger) : Event β → Bytes → Origin
  | .select => l.origin
  | .command apdu => m.origins l apdu
  | .reboot _ _ _ => l.kept

/-- The ledger after an event of a machine with nothing persisted yet. -/
def record (m : Machine β) (l : Ledger) (e : Event β) : Ledger where
  time := l.time + 1
  origin := m.originsAfter l e
  kept := if (m.step e).host.saved.isSome then m.originsAfter l e else l.kept
  shown :=
    match e with
    | .command apdu => ((m.shows apdu).map fun code => (l.origin code.1, code.2)).toList ++ l.shown
    | _ => l.shown

variable [FallibleBackend β] (codec : Codec StoredCredential) (prims : Primitives)

/-- A reboot finds what the medium holds, under any key; reads and writes may fail from then on in
another way. -/
def Continues (m : Machine β) : Event β → Prop
  | .reboot crypto storage _ => crypto.prims = prims ∧
      ∃ b b', m.host.storage.backend = some b ∧ storage = StorageEngine.withBackend codec b' ∧
        FallibleBackend.held b' = FallibleBackend.held b
  | _ => True

/-- Runs with their ledgers, in which every event is allowed by `P`. -/
inductive Run (P : Machine β → Event β → Prop) : Machine β → Ledger → Prop
  | boot (crypto : AppletCrypto) (b : β) (rng : Nat → Entropy) (hprims : crypto.prims = prims) :
      Run P (boot crypto (StorageEngine.withBackend codec b) rng) .first
  | step {m : Machine β} {l : Ledger} (e : Event β) : Run P m l → P m e →
      m.Continues codec prims e → Run P (m.unsaved.step e) (m.unsaved.record l e)

/-- A CALCULATE, on an open applet, that names the greatest counter of a HOTP credential; the source
saturates there. -/
def Saturates (m : Machine β) (e : Event β) : Prop :=
  ∃ apdu name challenge state cred, e = .command apdu ∧ apdu.cla = 0 ∧ apdu.ins = insCalculate ∧
    parseCalculate apdu.p2 apdu.data = .ok (name, challenge) ∧ m.current = some state ∧
    opened state m.host.memory.session = true ∧ state.credentials.map[name]? = some cred ∧
    cred.oathType = .hotp ∧ challenge.length = 8 ∧ Bytes.beNat challenge = 2 ^ 64 - 1

end Machine

/-! ## The invariant -/

/-- The credentials of a state have different origins, and counters beyond those shown. -/
structure Fresh (state : OathState) (origin : Bytes → Origin) (l : Ledger) : Prop where
  apart : ∀ {name name' : Bytes} {cred cred' : OathCredential},
    state.credentials.map[name]? = some cred → state.credentials.map[name']? = some cred' →
    origin name = origin name' → name = name'
  past : ∀ {name : Bytes} {cred : OathCredential} {time : Nat},
    state.credentials.map[name]? = some cred → origin name = .put time → time < l.time
  beyond : ∀ {name : Bytes} {cred : OathCredential} {counter : Nat},
    state.credentials.map[name]? = some cred → (origin name, counter) ∈ l.shown →
    counter < cred.hotpCounter.toNat

/-- With other credentials gone, and time gone by. -/
theorem Fresh.of_subset {state new : OathState} {origin : Bytes → Origin} {l l' : Ledger}
    (hfresh : Fresh state origin l)
    (hsub : ∀ (name : Bytes) cred, new.credentials.map[name]? = some cred →
      state.credentials.map[name]? = some cred)
    (htime : l.time ≤ l'.time) (hshown : l'.shown = l.shown) : Fresh new origin l' where
  apart h h' := hfresh.apart (hsub _ _ h) (hsub _ _ h')
  past h hput := Nat.lt_of_lt_of_le (hfresh.past (hsub _ _ h) hput) htime
  beyond h hmem := hfresh.beyond (hsub _ _ h) (hshown ▸ hmem)

/-- A new credential comes from the present event. -/
theorem Fresh.put {state new : OathState} {origin : Bytes → Origin} {l l' : Ledger}
    (hfresh : Fresh state origin l)
    (hpast : ∀ time counter, (Origin.put time, counter) ∈ l.shown → time < l.time)
    {added : Bytes} {addedCred : OathCredential}
    (hnew : ∀ name : Bytes, new.credentials.map[name]? =
      if name = added then some addedCred else state.credentials.map[name]?)
    (htime : l'.time = l.time + 1) (hshown : l'.shown = l.shown) :
    Fresh new (Function.update origin added (.put l.time)) l' := by
  -- no older credential has this origin
  have hold : ∀ {name : Bytes} {cred : OathCredential}, name ≠ added →
      new.credentials.map[name]? = some cred →
      Function.update origin added (.put l.time) name = origin name ∧
        state.credentials.map[name]? = some cred ∧ origin name ≠ .put l.time := by
    intro name cred hne hcred
    rw [hnew, if_neg hne] at hcred
    refine ⟨Function.update_of_ne hne _ _, hcred, fun heq => ?_⟩
    exact Nat.lt_irrefl _ (hfresh.past hcred heq)
  refine ⟨fun {name name' cred cred'} h h' heq => ?_, fun {name cred time} h hput => ?_,
    fun {name cred counter} h hmem => ?_⟩
  · by_cases hname : name = added
    · by_cases hname' : name' = added
      · rw [hname, hname']
      · obtain ⟨horigin, -, hne⟩ := hold hname' h'
        rw [hname, Function.update_self, horigin] at heq
        exact absurd heq.symm hne
    · obtain ⟨horigin, hcred, hne⟩ := hold hname h
      by_cases hname' : name' = added
      · rw [hname', Function.update_self, horigin] at heq
        exact absurd heq hne
      · obtain ⟨horigin', hcred', -⟩ := hold hname' h'
        rw [horigin, horigin'] at heq
        exact hfresh.apart hcred hcred' heq
  · rw [htime]
    by_cases hname : name = added
    · rw [hname, Function.update_self] at hput
      cases hput
      exact Nat.lt_succ_self _
    · obtain ⟨horigin, hcred, -⟩ := hold hname h
      rw [horigin] at hput
      exact Nat.lt_succ_of_lt (hfresh.past hcred hput)
  · rw [hshown] at hmem
    by_cases hname : name = added
    · rw [hname, Function.update_self] at hmem
      exact absurd (hpast _ _ hmem) (Nat.lt_irrefl _)
    · obtain ⟨horigin, hcred, -⟩ := hold hname h
      rw [horigin] at hmem
      exact hfresh.beyond hcred hmem

/-- A credential takes its origin to its new name. -/
theorem Fresh.rename {state moved : OathState} {origin : Bytes → Origin} {l l' : Ledger}
    (hfresh : Fresh state origin l) {current new : Bytes}
    (hmoved : ∀ name : Bytes, moved.credentials.map[name]? =
      if name = new then state.credentials.map[current]?
      else if name = current then none else state.credentials.map[name]?)
    (htime : l.time ≤ l'.time) (hshown : l'.shown = l.shown) :
    Fresh moved (Function.update origin new (origin current)) l' := by
  -- the name that a credential had before
  have hname : ∀ {name : Bytes} {cred : OathCredential},
      moved.credentials.map[name]? = some cred → ∃ before : Bytes,
        state.credentials.map[before]? = some cred ∧
        Function.update origin new (origin current) name = origin before ∧
        (before = current ∧ name = new ∨ before ≠ current ∧ name = before) := by
    intro name cred hcred
    rw [hmoved] at hcred
    split at hcred
    · next hnew => exact ⟨current, hcred, by rw [hnew, Function.update_self], .inl ⟨rfl, hnew⟩⟩
    · next hnew =>
        split at hcred
        · cases hcred
        · next hcurrent =>
            exact ⟨name, hcred, Function.update_of_ne hnew _ _, .inr ⟨hcurrent, rfl⟩⟩
  refine ⟨fun h h' heq => ?_, fun h hput => ?_, fun h hmem => ?_⟩
  · obtain ⟨before, hcred, horigin, hwhich⟩ := hname h
    obtain ⟨before', hcred', horigin', hwhich'⟩ := hname h'
    rw [horigin, horigin'] at heq
    have hsame := hfresh.apart hcred hcred' heq
    obtain ⟨hbefore, hn⟩ | ⟨hbefore, hn⟩ := hwhich
    · obtain ⟨hbefore', hn'⟩ | ⟨hbefore', hn'⟩ := hwhich'
      · rw [hn, hn']
      · exact absurd (hsame.symm.trans hbefore) hbefore'
    · obtain ⟨hbefore', hn'⟩ | ⟨hbefore', hn'⟩ := hwhich'
      · exact absurd (hsame.trans hbefore') hbefore
      · rw [hn, hn', hsame]
  · obtain ⟨before, hcred, horigin, -⟩ := hname h
    rw [horigin] at hput
    exact Nat.lt_of_lt_of_le (hfresh.past hcred hput) htime
  · obtain ⟨before, hcred, horigin, -⟩ := hname h
    rw [horigin, hshown] at hmem
    exact hfresh.beyond hcred hmem

/-- The counter of a credential moves beyond the one shown. -/
theorem Fresh.count {state new : OathState} {origin : Bytes → Origin} {l l' : Ledger}
    (hfresh : Fresh state origin l) {name : Bytes} {cred : OathCredential} {next : UInt64}
    {used : Nat} (hcred : state.credentials.map[name]? = some cred)
    (hnew : ∀ other : Bytes, new.credentials.map[other]? =
      if other = name then some { cred with hotpCounter := next }
      else state.credentials.map[other]?)
    (hle : cred.hotpCounter.toNat ≤ used) (hlt : used < next.toNat) (htime : l.time ≤ l'.time)
    (hshown : l'.shown = (origin name, used) :: l.shown) : Fresh new origin l' := by
  have hbefore : ∀ {other : Bytes} {otherCred : OathCredential},
      new.credentials.map[other]? = some otherCred → ∃ before,
        state.credentials.map[other]? = some before ∧
        (other = name ∧ otherCred.hotpCounter = next ∧ before = cred ∨
          other ≠ name ∧ before = otherCred) := by
    intro other otherCred h
    rw [hnew] at h
    split at h
    · next heq =>
        cases h
        exact ⟨cred, by rw [heq]; exact hcred, .inl ⟨heq, rfl, rfl⟩⟩
    · next hne => exact ⟨otherCred, h, .inr ⟨hne, rfl⟩⟩
  refine ⟨fun h h' heq => ?_, fun h hput => ?_, fun h hmem => ?_⟩
  · obtain ⟨before, hb, -⟩ := hbefore h
    obtain ⟨before', hb', -⟩ := hbefore h'
    exact hfresh.apart hb hb' heq
  · obtain ⟨before, hb, -⟩ := hbefore h
    exact Nat.lt_of_lt_of_le (hfresh.past hb hput) htime
  · obtain ⟨before, hb, ⟨heq, hcounter, rfl⟩ | ⟨hne, rfl⟩⟩ := hbefore h
    · rw [hcounter]
      rw [hshown, heq] at hmem
      obtain hhead | htail := List.mem_cons.mp hmem
      · rw [(Prod.mk.inj hhead).2]
        exact hlt
      · have hold := hfresh.beyond hcred htail
        omega
    · rw [hshown] at hmem
      obtain hhead | htail := List.mem_cons.mp hmem
      · exact absurd (hfresh.apart hb hcred (Prod.mk.inj hhead).1) hne
      · exact hfresh.beyond hb htail

/-- A code is computed with a counter that is not behind the credential, and short of the greatest
the counter moves beyond it. -/
theorem movingFactor_hotp {cred : OathCredential} {challenge signed : Bytes} {next : UInt64}
    (h : movingFactor cred challenge = .ok (signed, some next)) :
    cred.oathType = .hotp ∧ cred.hotpCounter.toNat ≤ Bytes.beNat signed ∧
      (Bytes.beNat signed < next.toNat ∨
        challenge.length = 8 ∧ Bytes.beNat challenge = 2 ^ 64 - 1) := by
  unfold movingFactor at h
  cases htype : cred.oathType with
  | totp =>
      simp only [htype] at h
      split at h <;> cases h
  | hotp =>
      simp only [htype] at h
      have hcounter := cred.hotpCounter.toNat_lt
      split at h
      · split at h
        · next hroom =>
            cases h
            rw [Bytes.beNat_beBytes_of_lt (by omega), UInt64.toNat_add]
            refine ⟨rfl, Nat.le_refl _, .inl ?_⟩
            rw [show (1 : UInt64).toNat = 1 from rfl, Nat.mod_eq_of_lt (by omega)]
            exact Nat.lt_succ_self _
        · cases h
      · split at h
        · cases h
        · next hlen =>
            split at h
            · cases h
            · next hused =>
                have hlt := Bytes.beNat_lt challenge
                have hpow : 256 ^ challenge.length ≤ 256 ^ 8 :=
                  Nat.pow_le_pow_right (by decide) (by omega)
                cases h
                rw [Bytes.beNat_beBytes_of_lt (by omega), UInt64.toNat_ofNat']
                refine ⟨rfl, by omega, ?_⟩
                by_cases htop : Bytes.beNat challenge = 2 ^ 64 - 1
                · refine .inr ⟨?_, htop⟩
                  by_contra hne
                  have hpow7 : 256 ^ challenge.length ≤ 256 ^ 7 :=
                    Nat.pow_le_pow_right (by decide) (by omega)
                  omega
                · refine .inl ?_
                  rw [Nat.mod_eq_of_lt (by omega)]
                  omega

namespace Machine

/-- What holds in every run. -/
structure Inv {β : Type} [StorageBackend β] [FallibleBackend β] (prims : Primitives)
    (m : Machine β) (l : Ledger) : Prop where
  prims_eq : m.crypto.prims = prims
  backend : m.host.storage.backend.isSome
  memory : ∃ state, m.host.memory.state = some state ∧ Fresh state l.origin l
  /-- Whatever the medium opens to, under any key. -/
  medium : ∀ crypto : AppletCrypto, crypto.prims = prims → ∀ blob state migrated,
    m.host.storage.heldEntry format.storageKey = some blob →
    Host.openBlob crypto format blob = some (state, migrated) → Fresh state l.kept l
  past : ∀ time counter, (Origin.put time, counter) ∈ l.shown → time < l.time
  nodup : l.shown.Nodup

section

variable {β : Type} [StorageBackend β] [FallibleBackend β] {prims : Primitives} {m : Machine β}
  {l : Ledger} {apdu : Apdu}

theorem Inv.unsaved (h : Inv prims m l) : Inv prims m.unsaved l :=
  ⟨h.prims_eq, h.backend, h.memory, h.medium, h.past, h.nodup⟩

/-! ## A boot -/

omit [FallibleBackend β] in
theorem fresh_factory (entropy : Entropy) (origin : Bytes → Origin) (l : Ledger) :
    Fresh (factoryState entropy) origin l := by
  have hnone : ∀ {name : Bytes} {cred : OathCredential},
      (factoryState entropy).credentials.map[name]? ≠ some cred := by
    intro name cred h
    have hempty : (factoryState entropy).credentials.map[name]? = none :=
      Std.ExtTreeMap.getElem?_empty
    rw [hempty] at h
    cases h
  exact ⟨fun h => absurd h hnone, fun h => absurd h hnone, fun h => absurd h hnone⟩

/-- The medium opens to the state that was sealed onto it. -/
theorem fresh_sealed (haead : AeadSound prims) {crypto : AppletCrypto}
    (hprims : crypto.prims = prims) {state : OathState} {e : StorageEngine β}
    (hheld : ∃ blob entropy, e.heldEntry format.storageKey = some blob ∧
      Host.sealState crypto format state entropy = .ok blob)
    {origin : Bytes → Origin} (hfresh : Fresh state origin l) :
    ∀ crypto : AppletCrypto, crypto.prims = prims → ∀ blob state migrated,
      e.heldEntry format.storageKey = some blob →
      Host.openBlob crypto format blob = some (state, migrated) → Fresh state origin l := by
  intro crypto' hprims' blob opened migrated hblob hopen
  obtain ⟨sealed, entropy, hsealed, hseal⟩ := hheld
  obtain rfl : sealed = blob := Option.some.inj (hsealed.symm.trans hblob)
  have heq := Host.eq_of_openBlob (hprims ▸ haead) (hprims'.trans hprims.symm) hseal hopen
  rw [(Prod.mk.inj heq).1]
  exact hfresh

omit prims m l apdu in
/-- How a boot over a medium ends. -/
theorem boot_loads (codec : Codec StoredCredential) (crypto : AppletCrypto) (b : β)
    (rng : Nat → Entropy) : ∃ state,
      (boot crypto (.withBackend codec b) rng).host.memory = ⟨some state, Session.fresh⟩ ∧
      (boot crypto (.withBackend codec b) rng).host.storage.backend.isSome ∧
      Host.Loads crypto format state
        ⟨.withBackend codec b, rng, ⟨none, Session.fresh⟩, none⟩
        (boot crypto (.withBackend codec b) rng).host := by
  have hbackend : (StorageEngine.withBackend codec b).backend.isSome := by
    rw [(StorageEngine.withBackend_eq codec b).1]
    rfl
  exact Host.ensureLoaded_ends (h := ⟨.withBackend codec b, rng, ⟨none, Session.fresh⟩, none⟩)
    hbackend rfl (rfl : (format.factory.run rng).1 = .ok (factoryState (rng 0)))

/-- A boot takes the credentials of the medium, or makes a factory state. -/
theorem inv_boot (haead : AeadSound prims) (codec : Codec StoredCredential) {crypto : AppletCrypto}
    (hprims : crypto.prims = prims) {b : β} {rng : Nat → Entropy} (hsame : l.origin = l.kept)
    (hmedium : ∀ crypto : AppletCrypto, crypto.prims = prims → ∀ blob state migrated,
      (StorageEngine.withBackend codec b).heldEntry format.storageKey = some blob →
      Host.openBlob crypto format blob = some (state, migrated) → Fresh state l.kept l)
    (hpast : ∀ time counter, (Origin.put time, counter) ∈ l.shown → time < l.time)
    (hnodup : l.shown.Nodup) :
    Inv prims (boot crypto (StorageEngine.withBackend codec b) rng) l := by
  obtain ⟨state, hmemory, hb, hloads⟩ := boot_loads codec crypto b rng
  have hfound : ∀ {migrated}, Host.storedState crypto format (StorageEngine.withBackend codec b) =
      some (state, migrated) → Fresh state l.kept l := by
    intro migrated hstored
    obtain ⟨blob, hblob, hopen⟩ := Option.bind_eq_some_iff.mp hstored
    refine hmedium crypto hprims blob state migrated (StorageEngine.heldEntry_of_retrieve codec ?_)
      hopen
    rcases hread : (StorageEngine.withBackend codec b).retrieve format.storageKey with e | v
    · rw [hread] at hblob
      cases hblob
    · rw [hread] at hblob
      rw [show v = blob from Option.some.inj hblob]
  have hmade : Host.Made crypto format state
      ⟨StorageEngine.withBackend codec b, rng, ⟨none, Session.fresh⟩, none⟩ →
      Fresh state l.kept l := by
    rintro (hstored | ⟨-, hfactory⟩)
    · exact hfound hstored
    · rw [← Except.ok.inj hfactory]
      exact fresh_factory _ _ _
  have hfresh : Fresh state l.kept l := by
    cases hloads with
    | found hstored _ _ => exact hfound hstored
    | written made _ _ => exact hmade made
    | refused made _ _ _ => exact hmade made
  refine ⟨hprims, hb,
    ⟨state, congrArg Memory.state hmemory, by rw [hsame]; exact hfresh⟩, ?_, hpast,
    hnodup⟩
  cases hloads with
  | found _ _ hstorage =>
      intro crypto' hprims' blob opened migrated hheld hopen
      rw [show (boot crypto _ rng).host.storage = _ from hstorage] at hheld
      exact hmedium crypto' hprims' blob opened migrated hheld hopen
  | written _ _ held => exact fresh_sealed haead hprims held hfresh
  | refused _ _ _ held =>
      intro crypto' hprims' blob opened migrated hheld hopen
      exact hmedium crypto' hprims' blob opened migrated (held ▸ hheld) hopen

/-! ## SELECT and commands -/

/-- An event that persists at most one state, with the credentials of that state and of the memory
beyond the ledger that it leaves. -/
theorem inv_of_outcome (haead : AeadSound prims) (hinv : Inv prims m l)
    (hsaved : m.host.saved = none) {state : OathState} {g : Host β OathState Session}
    {target : Option Edit} {result : Except Fault ResponseData} {l' : Ledger}
    (hout : Outcome m.crypto state m.host g target result) (htime : l'.time = l.time + 1)
    (hkept : l'.kept = if g.saved.isSome then l'.origin else l.kept)
    (hfresh : ∀ new, g.memory.state = some new → Fresh new l'.origin l')
    (hshown : g.saved = none → l'.shown = l.shown)
    (hpast : ∀ time counter, (Origin.put time, counter) ∈ l'.shown → time < l'.time)
    (hnodup : l'.shown.Nodup) : Inv prims ⟨m.crypto, g⟩ l' := by
  have hbefore : g.saved = none →
      g.storage.heldEntry format.storageKey = m.host.storage.heldEntry format.storageKey →
      ∀ crypto : AppletCrypto, crypto.prims = prims → ∀ blob state migrated,
        g.storage.heldEntry format.storageKey = some blob →
        Host.openBlob crypto format blob = some (state, migrated) → Fresh state l'.kept l' := by
    intro hunsaved hheld crypto hprims blob opened migrated hblob hopen
    rw [hkept, hunsaved]
    exact (hinv.medium crypto hprims blob opened migrated (hheld ▸ hblob) hopen).of_subset
      (fun _ _ h => h) (htime ▸ Nat.le_succ _) (hshown hunsaved)
  cases hout with
  | stays _ memory saved storage =>
      exact ⟨hinv.prims_eq, by rw [storage]; exact hinv.backend, ⟨state, memory, hfresh _ memory⟩,
        hbefore (saved.trans hsaved) (by rw [storage]), hpast, hnodup⟩
  | written edit _ _ memory saved backend held =>
      refine ⟨hinv.prims_eq, backend, ⟨_, memory, hfresh _ memory⟩, ?_, hpast, hnodup⟩
      rw [hkept, saved]
      exact fresh_sealed haead hinv.prims_eq held (hfresh _ memory)
  | failed edit _ memory saved backend held =>
      exact ⟨hinv.prims_eq, backend, ⟨_, memory, hfresh _ memory⟩,
        hbefore (saved.trans hsaved) held, hpast, hnodup⟩

theorem inv_select (haead : AeadSound prims) (hinv : Inv prims m l)
    (hsaved : m.host.saved = none) : Inv prims (m.step .select) (m.record l .select) := by
  obtain ⟨state, hmem, hfresh⟩ := hinv.memory
  obtain ⟨result, hout⟩ : ∃ r, Outcome m.crypto state m.host (m.step .select).host
    (rotated state (m.host.rng 0)) r := ends_select hmem hinv.backend
  have hfresh' : Fresh state l.origin (m.record l .select) :=
    hfresh.of_subset (fun _ _ h => h) (Nat.le_succ _) rfl
  refine inv_of_outcome haead hinv hsaved hout rfl rfl (fun new hnew => ?_) (fun _ => rfl)
    (fun time counter h => Nat.lt_succ_of_lt (hinv.past time counter h)) hinv.nodup
  -- only the challenge of the access code may be another
  have hsame : new.credentials = state.credentials := by
    generalize htarget : rotated state (m.host.rng 0) = target at hout
    have hrotated : ∀ edit, target = some edit → edit.state.credentials = state.credentials := by
      intro edit hedit
      rw [← htarget] at hedit
      obtain ⟨access, -, rfl⟩ := Option.map_eq_some_iff.mp hedit
      rfl
    cases hout with
    | stays _ memory _ _ =>
        rw [show new = state from Option.some.inj (hnew.symm.trans memory)]
    | written edit _ _ memory _ _ _ =>
        rw [show new = edit.state from Option.some.inj (hnew.symm.trans memory)]
        exact hrotated edit rfl
    | failed edit _ memory _ _ _ =>
        rw [show new = _ from Option.some.inj (hnew.symm.trans memory)]
        split
        · rfl
        · exact hrotated edit rfl
  refine hfresh'.of_subset (fun name cred h => ?_) (Nat.le_refl _) rfl
  rw [hsame] at h
  exact h

omit [FallibleBackend β] in
theorem current_of_memory {state : OathState} (hmem : m.host.memory.state = some state) :
    m.current = some state := by
  unfold current Host.current
  rw [hmem]

omit [FallibleBackend β] in
theorem edit_of_memory {state : OathState} (hmem : m.host.memory.state = some state) :
    m.edit apdu = edited m.crypto state m.host.memory.session (m.host.rng 0) apdu := by
  unfold edit
  rw [current_of_memory hmem]
  rfl

omit [FallibleBackend β] in
theorem touches_of_edit {state : OathState} {edit : Edit}
    (hmem : m.host.memory.state = some state) (hedit : m.edit apdu = some edit) :
    Touches state apdu edit := by
  rw [edit_of_memory hmem] at hedit
  exact touches_of_edited hedit

omit [FallibleBackend β] in
/-- What a code that is shown goes back to. -/
theorem of_shows {code : Bytes × Nat} (h : m.shows apdu = some code) :
    apdu.cla = 0 ∧ apdu.ins = insCalculate ∧ (m.respond apdu).1.isOk ∧
      ∃ challenge state cred signed next, parseCalculate apdu.p2 apdu.data =
        .ok (code.1, challenge) ∧
        m.current = some state ∧ state.credentials.map[code.1]? = some cred ∧
        movingFactor cred challenge = .ok (signed, some next) ∧ code.2 = Bytes.beNat signed := by
  unfold shows at h
  split at h
  · next hcalc =>
      split at h
      · next name challenge hparsed =>
          obtain ⟨state, hstate, h⟩ := Option.bind_eq_some_iff.mp h
          obtain ⟨cred, hcred, h⟩ := Option.bind_eq_some_iff.mp h
          split at h
          · next signed next hmoved =>
              cases h
              exact ⟨hcalc.1, hcalc.2.1, hcalc.2.2, challenge, state, cred, signed, next, hparsed,
                hstate, hcred, hmoved, rfl⟩
          · cases h
      · cases h
  · cases h

omit [FallibleBackend β] in
/-- Behind a closed gate there is an error. -/
theorem opened_of_ok {state : OathState} (hcurrent : m.current = some state)
    (hins : apdu.ins = insCalculate) (hok : (m.respond apdu).1.isOk = true) :
    opened state m.host.memory.session = true := by
  by_contra hclosed
  have hgate : state.access.isSome = true ∧ m.host.memory.session.validated = false := by
    simpa [opened, Option.ne_none_iff_isSome] using hclosed
  obtain ⟨sw, g, hrun, -⟩ := run_process_guarded (by rw [hins]; decide) hcurrent hgate.1 hgate.2
  have hrespond : m.respond apdu = (.error (.status sw), g) := hrun
  rw [hrespond] at hok
  cases hok

/-- A code is shown only by a CALCULATE that persists its counter. -/
theorem edit_of_shows (hinv : Inv prims m l) {code : Bytes × Nat}
    (h : m.shows apdu = some code) : (m.edit apdu).isSome := by
  obtain ⟨state, hmem, -⟩ := hinv.memory
  obtain ⟨hcla, hins, hok, challenge, current, cred, signed, next, hparsed, hcurrent, hcred, hmoved,
    -⟩ := of_shows h
  obtain rfl : current = state := Option.some.inj (hcurrent.symm.trans (current_of_memory hmem))
  have hopen := opened_of_ok hcurrent hins hok
  have hedit : calculateEdit current apdu.p2 apdu.data = some ⟨{ current with
      credentials := current.credentials.setCounter code.1 next }, 0, true⟩ := by
    unfold calculateEdit
    rw [hparsed]
    simp only [hcred, Option.bind_some, hmoved]
  rw [edit_of_memory hmem]
  unfold edited
  rw [if_neg (not_not.mpr hcla), hins, hopen]
  exact Option.isSome_iff_exists.mpr ⟨_, hedit⟩

omit [FallibleBackend β] in
/-- The credentials after an edit other than that of CALCULATE. -/
theorem fresh_touched {state : OathState} {edit : Edit} (hfresh : Fresh state l.origin l)
    (hpast : ∀ time counter, (Origin.put time, counter) ∈ l.shown → time < l.time)
    (hedit : m.edit apdu = some edit) (htouches : Touches state apdu edit)
    (hcount : apdu.ins ≠ insCalculate) {l' : Ledger} (htime : l'.time = l.time + 1)
    (hshown : l'.shown = l.shown) : Fresh edit.state (m.origins l apdu) l' := by
  have hle : l.time ≤ l'.time := htime ▸ Nat.le_succ _
  unfold origins
  rw [hedit, if_pos Option.isSome_some]
  cases htouches with
  | put req hins hparsed _ hcreds =>
      rw [if_pos hins, hparsed]
      exact hfresh.put hpast hcreds htime hshown
  | rename current new hnew hins hparsed _ _ hcreds =>
      rw [if_neg (by rw [hins]; decide), if_pos hins, hparsed]
      exact hfresh.rename hcreds hle hshown
  | count _ _ _ _ _ hins => exact absurd hins hcount
  | other hput hrename _ _ hcreds =>
      rw [if_neg hput, if_neg hrename]
      exact hfresh.of_subset hcreds hle hshown

omit [FallibleBackend β] in
/-- A CALCULATE that persists its counter and succeeds shows the code. -/
theorem shows_of_count {state : OathState} {edit : Edit} (hmem : m.host.memory.state = some state)
    (hedit : m.edit apdu = some edit) (hok : (m.respond apdu).1.isOk = true)
    {name challenge signed : Bytes} {cred : OathCredential} {next : UInt64}
    (hins : apdu.ins = insCalculate)
    (hparsed : parseCalculate apdu.p2 apdu.data = .ok (name, challenge))
    (hfound : state.credentials.map[name]? = some cred)
    (hmoved : movingFactor cred challenge = .ok (signed, some next)) :
    m.shows apdu = some (name, Bytes.beNat signed) := by
  have hcla : apdu.cla = 0 := by
    rw [edit_of_memory hmem] at hedit
    unfold edited at hedit
    split at hedit
    · cases hedit
    · next hcla => exact not_not.mp hcla
  unfold shows
  rw [if_pos ⟨hcla, hins, hok⟩, hparsed, current_of_memory hmem]
  simp only [Option.bind_some, hfound, hmoved]

omit [FallibleBackend β] in
theorem record_shown_none (h : m.shows apdu = none) :
    (m.record l (.command apdu)).shown = l.shown := by
  show ((m.shows apdu).map _).toList ++ l.shown = _
  rw [h]
  rfl

omit [FallibleBackend β] in
theorem record_shown_some {code : Bytes × Nat} (h : m.shows apdu = some code) :
    (m.record l (.command apdu)).shown = (l.origin code.1, code.2) :: l.shown := by
  show ((m.shows apdu).map _).toList ++ l.shown = _
  rw [h]
  rfl

omit [FallibleBackend β] in
theorem origins_of_calculate (h : apdu.ins = insCalculate) : m.origins l apdu = l.origin := by
  unfold origins
  split
  · rw [if_neg (by rw [h]; decide), if_neg (by rw [h]; decide)]
  · rfl

/-- A command that shows no code. -/
theorem inv_silent (haead : AeadSound prims) (hinv : Inv prims m l) (hsaved : m.host.saved = none)
    (hsilent : m.shows apdu = none) :
    Inv prims (m.step (.command apdu)) (m.record l (.command apdu)) := by
  obtain ⟨state, hmem, hfresh⟩ := hinv.memory
  have hout : Outcome m.crypto state m.host (m.respond apdu).2
      (edited m.crypto state m.host.memory.session (m.host.rng 0) apdu) (m.respond apdu).1 :=
    ends_process hmem hinv.backend apdu
  have hshown := record_shown_none (l := l) hsilent
  refine inv_of_outcome haead hinv hsaved hout rfl rfl (fun new hnew => ?_) (fun _ => hshown)
    (fun time counter h => Nat.lt_succ_of_lt (hinv.past time counter (hshown ▸ h)))
    (by rw [hshown]; exact hinv.nodup)
  show Fresh new (m.origins l apdu) _
  -- the state is the one before, where the origins are, or that of an edit
  have hbefore : apdu.ins = insCalculate ∨ m.edit apdu = none →
      Fresh state (m.origins l apdu) (m.record l (.command apdu)) := by
    intro hwhy
    have hsame : m.origins l apdu = l.origin := by
      obtain hins | hnone := hwhy
      · exact origins_of_calculate hins
      · unfold origins
        rw [hnone]
        rfl
    rw [hsame]
    exact hfresh.of_subset (fun _ _ h => h) (Nat.le_succ _) hshown
  have hafter : ∀ {edit : Edit}, m.edit apdu = some edit → apdu.ins ≠ insCalculate →
      Fresh edit.state (m.origins l apdu) (m.record l (.command apdu)) :=
    fun hedit hcount =>
      fresh_touched hfresh hinv.past hedit (touches_of_edit hmem hedit) hcount rfl hshown
  rw [← edit_of_memory hmem] at hout
  generalize htarget : m.edit apdu = target at hout
  generalize hresult : (m.respond apdu).1 = result at hout
  cases hout with
  | stays _ memory _ _ =>
      rw [show new = state from Option.some.inj (hnew.symm.trans memory)]
      exact hbefore (.inr htarget)
  | written edit response _ memory _ _ _ =>
      rw [show new = edit.state from Option.some.inj (hnew.symm.trans memory)]
      refine hafter htarget fun hins => ?_
      cases touches_of_edit hmem htarget with
      | put _ hput => exact absurd (hput.symm.trans hins) (by decide)
      | rename _ _ _ hrename => exact absurd (hrename.symm.trans hins) (by decide)
      | count name challenge signed cred next _ hparsed hfound hmoved =>
          rw [shows_of_count hmem htarget (by rw [hresult]; rfl) hins hparsed hfound hmoved]
            at hsilent
          cases hsilent
      | other _ _ hcalculate => exact hcalculate hins
  | failed edit _ memory _ _ _ =>
      rw [show new = _ from Option.some.inj (hnew.symm.trans memory)]
      cases touches_of_edit hmem htarget with
      | put req hins _ hundone =>
          rw [hundone]
          exact hafter htarget (by rw [hins]; decide)
      | rename _ _ _ hins _ hundone =>
          rw [hundone]
          exact hafter htarget (by rw [hins]; decide)
      | count _ _ _ _ _ hins _ _ _ hundone =>
          rw [hundone]
          exact hbefore (.inl hins)
      | other _ _ hcalculate hundone =>
          rw [hundone]
          exact hafter htarget hcalculate

/-- A command that shows a code, with a counter short of the greatest. -/
theorem inv_shows (haead : AeadSound prims) (hinv : Inv prims m l) (hsaved : m.host.saved = none)
    {code : Bytes × Nat} (hcode : m.shows apdu = some code)
    (hroom : ¬m.Saturates (.command apdu)) :
    Inv prims (m.step (.command apdu)) (m.record l (.command apdu)) := by
  obtain ⟨state, hmem, hfresh⟩ := hinv.memory
  have hout : Outcome m.crypto state m.host (m.respond apdu).2
      (edited m.crypto state m.host.memory.session (m.host.rng 0) apdu) (m.respond apdu).1 :=
    ends_process hmem hinv.backend apdu
  have hshown := record_shown_some (l := l) hcode
  obtain ⟨edit, hedit⟩ := Option.isSome_iff_exists.mp (edit_of_shows hinv hcode)
  obtain ⟨hcla, hins, hok, challenge, current, cred, signed, next, hparsed, hcurrent, hcred, hmoved,
    hused⟩ := of_shows hcode
  obtain rfl : current = state := Option.some.inj (hcurrent.symm.trans (current_of_memory hmem))
  -- the counter was not behind the credential, and moves beyond the code
  obtain ⟨htype, hle, hlt⟩ := movingFactor_hotp hmoved
  replace hlt : code.2 < next.toNat := by
    rw [hused]
    refine hlt.resolve_right fun htop => hroom ?_
    exact ⟨apdu, code.1, challenge, current, cred, rfl, hcla, hins, hparsed, hcurrent,
      opened_of_ok hcurrent hins hok, hcred, htype, htop.1, htop.2⟩
  have hnew : (l.origin code.1, code.2) ∉ l.shown := fun hmem => by
    have hbefore := hfresh.beyond hcred hmem
    omega
  rw [← edit_of_memory hmem, hedit] at hout
  generalize hresult : (m.respond apdu).1 = result at hout hok
  refine inv_of_outcome haead hinv hsaved hout rfl rfl (fun new hloaded => ?_) (fun hunsaved => ?_)
    (fun time counter h => ?_) ?_
  · show Fresh new (m.origins l apdu) _
    rw [origins_of_calculate hins]
    have htouches := touches_of_edit hmem hedit
    cases hout with
    | written _ response _ memory _ _ _ =>
        obtain rfl := Option.some.inj (hloaded.symm.trans memory)
        cases htouches with
        | put _ hput => exact absurd (hput.symm.trans hins) (by decide)
        | rename _ _ _ hrename => exact absurd (hrename.symm.trans hins) (by decide)
        | count _ _ _ _ _ _ hparsed' hfound hmoved' _ hcreds =>
            cases hparsed.symm.trans hparsed'
            obtain rfl := Option.some.inj (hcred.symm.trans hfound)
            cases hmoved.symm.trans hmoved'
            exact hfresh.count hcred hcreds (hused ▸ hle) hlt (Nat.le_succ _) hshown
        | other _ _ hcalculate => exact absurd hins hcalculate
    | failed => cases hok
  · cases hout with
    | written _ _ _ _ saved _ _ =>
        rw [show (m.respond apdu).2.saved = _ from saved] at hunsaved
        cases hunsaved
    | failed => cases hok
  · rw [hshown] at h
    refine Nat.lt_succ_iff.mpr (Nat.le_of_lt ?_)
    obtain hhead | htail := List.mem_cons.mp h
    · exact hfresh.past hcred (Prod.mk.inj hhead).1.symm
    · exact hinv.past time counter htail
  · rw [hshown]
    exact List.nodup_cons.mpr ⟨hnew, hinv.nodup⟩

/-- What one event keeps. -/
theorem inv_step (haead : AeadSound prims) {codec : Codec StoredCredential} (hinv : Inv prims m l)
    (hsaved : m.host.saved = none) {e : Event β} (hroom : ¬m.Saturates e)
    (hcontinues : m.Continues codec prims e) : Inv prims (m.step e) (m.record l e) := by
  cases e with
  | select => exact inv_select haead hinv hsaved
  | command apdu =>
      cases hcode : m.shows apdu with
      | none => exact inv_silent haead hinv hsaved hcode
      | some code => exact inv_shows haead hinv hsaved hcode hroom
  | reboot crypto storage rng =>
      obtain ⟨hprims, b, b', hb, rfl, hheld⟩ := hcontinues
      have hkept : (m.record l (.reboot crypto (.withBackend codec b') rng)).kept = l.kept :=
        ite_self _
      refine inv_boot haead codec hprims hkept.symm ?_
        (fun time counter h => Nat.lt_succ_of_lt (hinv.past time counter h)) hinv.nodup
      intro crypto' hprims' blob opened migrated hblob hopen
      rw [hkept]
      refine (hinv.medium crypto' hprims' blob opened migrated ?_ hopen).of_subset
        (fun _ _ h => h) (Nat.le_succ _) rfl
      unfold StorageEngine.heldEntry at hblob ⊢
      rw [(StorageEngine.withBackend_eq codec b').1, Option.bind_some, hheld] at hblob
      rw [hb]
      exact hblob

/-- What holds in every run without a CALCULATE that names the greatest counter. -/
theorem inv_run (haead : AeadSound prims) {codec : Codec StoredCredential}
    (hrun : Run codec prims (fun m e => ¬m.Saturates e) m l) : Inv prims m l := by
  induction hrun with
  | boot crypto b rng hprims =>
      refine inv_boot haead codec hprims rfl ?_
        (fun _ _ h => absurd h List.not_mem_nil) List.nodup_nil
      intro crypto' _ blob state migrated _ _
      exact ⟨fun _ _ h => Origin.found.inj h, fun _ h => Origin.noConfusion h,
        fun _ h => absurd h List.not_mem_nil⟩
  | step e _ hroom hcontinues ih =>
      exact inv_step haead ih.unsaved rfl hroom hcontinues

end

end Machine

/-! ## The answer to CALCULATE -/

/-- The response to a CALCULATE is the code of these bytes under the credential of this name. -/
structure IsCode (crypto : AppletCrypto) (state : OathState) (apdu : Apdu)
    (response : ResponseData) (name : Bytes) (cred : OathCredential) (signed : Bytes) : Prop where
  cla : apdu.cla = 0
  found : state.credentials.map[name]? = some cred
  factor : ∃ challenge next, parseCalculate apdu.p2 apdu.data = .ok (name, challenge) ∧
    movingFactor cred challenge = .ok (signed, next)
  code : ∃ out, pushCode [] (apdu.p2 = 0x01) cred.digits
    (hmacByAlgorithm crypto cred.algorithm cred.secret signed) = .ok out ∧ response = .ok out

/-- HOTP signs the eight bytes of a counter, and the counter moves on. -/
theorem movingFactor_signs {cred : OathCredential} {challenge signed : Bytes}
    {next : Option UInt64} (h : movingFactor cred challenge = .ok (signed, next))
    (htype : cred.oathType = .hotp) :
    ∃ counter moved, counter < 2 ^ 64 ∧ signed = Bytes.beBytes 8 counter ∧ next = some moved := by
  unfold movingFactor at h
  simp only [htype] at h
  split at h
  · split at h
    · cases h
      exact ⟨_, _, cred.hotpCounter.toNat_lt, rfl, rfl⟩
    · cases h
  · split at h
    · cases h
    · next hlen =>
        split at h
        · cases h
        · cases h
          have hpow : 256 ^ challenge.length ≤ 256 ^ 8 :=
            Nat.pow_le_pow_right (by decide) (by omega)
          exact ⟨_, _, (Bytes.beNat_lt challenge).trans_le hpow, rfl, rfl⟩

section

variable {β : Type} [StorageBackend β] [FallibleBackend β] {crypto : AppletCrypto}
  {state : OathState} {h : Host β OathState Session} (hmem : h.memory.state = some state)
  (hb : h.storage.backend.isSome)

include hmem hb

/-- What CALCULATE answers where it succeeds. -/
theorem ends_cmdCalculate_ok {apdu : Apdu} (hcla : apdu.cla = 0) :
    Host.Ends crypto format (cmdCalculate crypto apdu.p2 apdu.data) h fun r _ =>
      ∀ response, r = .ok response → ∃ name cred signed,
        IsCode crypto state apdu response name cred signed := by
  refine ends_requireValidated hmem (fun _ => ?_) fun _ _ hresponse => by cases hresponse
  refine .orStatus (fun request hparsed => ?_) fun _ _ _ hresponse => by cases hresponse
  obtain ⟨name, challenge⟩ := request
  refine .stateMut hmem (.orRefuse (fun cred hcred => ?_) fun _ _ hresponse => by cases hresponse)
  refine .orStatus (fun moved hmoved => ?_) fun _ _ _ hresponse => by cases hresponse
  obtain ⟨signed, next⟩ := moved
  have hlen := digestLen_le cred.algorithm
  rw [← length_hmacByAlgorithm crypto cred.algorithm cred.secret signed] at hlen
  obtain ⟨out, hout⟩ := pushCode_ok hlen (apdu.p2 = 0x01) cred.digits
  have hcode : IsCode crypto state apdu (.ok out) name cred signed :=
    ⟨hcla, hcred, ⟨challenge, next, hparsed, hmoved⟩, out, hout, rfl⟩
  have hshown : ∀ response, (.ok (.ok out) : Except Fault ResponseData) = .ok response →
      ∃ name cred signed, IsCode crypto state apdu response name cred signed := by
    intro response hresponse
    cases hresponse
    exact ⟨name, cred, signed, hcode⟩
  cases next with
  | none =>
      simp only [advanceCounter]
      rw [hout]
      exact hshown
  | some next =>
      refine .bind (.stateMut hmem (.setState (.tryPersist rfl ?_ (fun g _ => ?_) fun g _ => ?_)))
      · exact hb
      · refine .pure ?_
        rw [hout]
        exact hshown
      · exact .setState (.refuse fun _ hresponse => by cases hresponse)

theorem ends_calculate {apdu : Apdu} (hins : apdu.ins = insCalculate) :
    Host.Ends crypto format (process crypto apdu) h fun r _ =>
      ∀ response, r = .ok response → ∃ name cred signed,
        IsCode crypto state apdu response name cred signed := by
  refine .require (fun hcla => ?_) fun _ _ hresponse => by cases hresponse
  refine .ite (fun hrem => absurd (hins.symm.trans hrem) (by decide)) fun _ => .attempt hmem hb ?_
  have hdispatch : dispatch crypto apdu = cmdCalculate crypto apdu.p2 apdu.data := by
    unfold dispatch
    rw [hins]
    rfl
  rw [hdispatch]
  -- what the command answers is handed on
  refine (ends_cmdCalculate_ok hmem hb (of_decide_eq_true hcla)).mono fun r g hr => ?_
  cases r with
  | ok response =>
      refine .modifySession (.pure fun response' hresponse => ?_)
      cases hresponse
      exact hr response rfl
  | error fault =>
      cases fault with
      | status sw => exact .modifySession (.refuse fun _ hresponse => by cases hresponse)
      | panic => exact fun _ hresponse => by cases hresponse
      | hang => exact fun _ hresponse => by cases hresponse

end

namespace Machine

/-- A CALCULATE that succeeds answers with a code; if the credential is of HOTP, the counter of the
code is recorded. -/
theorem recorded_of_ok {β : Type} [StorageBackend β] [FallibleBackend β] {prims : Primitives}
    {m : Machine β} {l : Ledger} (hinv : Inv prims m l) {apdu : Apdu}
    (hins : apdu.ins = insCalculate) {response : ResponseData}
    (hresponse : (m.respond apdu).1 = .ok response) :
    ∃ state name cred signed, m.current = some state ∧
      IsCode m.crypto state apdu response name cred signed ∧
      (cred.oathType = .hotp → ∃ counter, counter < 2 ^ 64 ∧ signed = Bytes.beBytes 8 counter ∧
        (m.record l (.command apdu)).shown = (l.origin name, counter) :: l.shown) := by
  obtain ⟨state, hmem, -⟩ := hinv.memory
  have hcurrent := current_of_memory hmem
  have hends : ∀ response, (m.respond apdu).1 = .ok response → ∃ name cred signed,
      IsCode m.crypto state apdu response name cred signed :=
    ends_calculate hmem hinv.backend hins
  obtain ⟨name, cred, signed, hcode⟩ := hends response hresponse
  refine ⟨state, name, cred, signed, hcurrent, hcode, fun htype => ?_⟩
  obtain ⟨challenge, next, hparsed, hmoved⟩ := hcode.factor
  obtain ⟨counter, moved, hlt, rfl, rfl⟩ := movingFactor_signs hmoved htype
  have hshows : m.shows apdu = some (name, counter) := by
    unfold shows
    rw [if_pos ⟨hcode.cla, hins, by rw [hresponse]; rfl⟩, hparsed, hcurrent]
    simp only [Option.bind_some, hcode.found, hmoved]
    rw [Bytes.beNat_beBytes_of_lt hlt]
  exact ⟨counter, hlt, rfl, record_shown_some hshows⟩

end Machine

/-! ## CALCULATE ALL -/

/-- The credentials of a state, all with the counter zero. -/
def uncounted (state : OathState) : Std.ExtTreeMap Bytes OathCredential :=
  state.credentials.map.map fun _ cred => { cred with hotpCounter := 0 }

/-- What CALCULATE ALL answers. -/
def allAnswer (crypto : AppletCrypto) (state : OathState) (session : Session) (apdu : Apdu) :
    Except Fault ResponseData :=
  if apdu.cla ≠ 0 then .error (.status swClassNotSupported)
  else if !opened state session then .error (.status swSecurityStatus)
  else
    match parseCalculateAll apdu.p2 apdu.data with
    | .ok challenge =>
        (state.credentials.map.toList.foldlM
          (pushAllEntry crypto (apdu.p2 = 0x01) challenge) []).map
          .ok
    | .error sw => .error (.status sw)

/-- The counters do not count. -/
theorem allAnswer_congr (crypto : AppletCrypto) {state other : OathState} (session : Session)
    (apdu : Apdu) (haccess : other.access = state.access)
    (hcreds : uncounted other = uncounted state) :
    allAnswer crypto other session apdu = allAnswer crypto state session apdu := by
  have hfold : ∀ (state : OathState) (truncated : Bool) (challenge : Bytes),
      state.credentials.map.toList.foldlM (pushAllEntry crypto truncated challenge) [] =
        (uncounted state).toList.foldlM (pushAllEntry crypto truncated challenge) [] := by
    intro state truncated challenge
    rw [uncounted, Std.ExtTreeMap.toList_map, List.foldlM_map]
    rfl
  unfold allAnswer opened
  simp only [hfold, hcreds, haccess]

theorem ends_calculateAll {β : Type} [StorageBackend β] [FallibleBackend β] {crypto : AppletCrypto}
    {state : OathState} {h : Host β OathState Session} (hmem : h.memory.state = some state)
    (hb : h.storage.backend.isSome) {apdu : Apdu} (hins : apdu.ins = insCalculateAll) :
    Host.Ends crypto format (process crypto apdu) h fun r g =>
      r = allAnswer crypto state h.memory.session apdu ∧ g.memory.state = some state ∧
        g.storage = h.storage := by
  unfold allAnswer
  refine .require (fun hcla => ?_) fun hcla => ?_
  · rw [if_neg (not_not.mpr (of_decide_eq_true hcla))]
    refine .ite (fun h => absurd (hins.symm.trans h) (by decide)) fun _ => .attempt hmem hb ?_
    have hdispatch : dispatch crypto apdu = cmdCalculateAll crypto apdu.p2 apdu.data := by
      unfold dispatch
      rw [hins]
      rfl
    rw [hdispatch]
    refine ends_requireValidated hmem (fun hopen => ?_) fun hclosed => ?_
    · rw [hopen]
      refine .orStatus (fun challenge hparsed => ?_) fun sw hparsed => ?_
      · rw [hparsed]
        refine .stateMut hmem (.orFault (fun out hout => ?_) fun fault hout => ?_)
        · simp only [hout]
          exact .pure (.modifySession (.pure ⟨rfl, hmem, rfl⟩))
        · simp only [hout]
          cases fault with
          | status sw => exact .modifySession (.refuse ⟨rfl, hmem, rfl⟩)
          | panic => exact ⟨rfl, hmem, rfl⟩
          | hang => exact ⟨rfl, hmem, rfl⟩
      · rw [hparsed]
        exact .modifySession (.refuse ⟨rfl, hmem, rfl⟩)
    · rw [hclosed]
      exact .modifySession (.refuse ⟨rfl, hmem, rfl⟩)
  · rw [if_pos (of_decide_eq_false hcla)]
    exact ⟨rfl, hmem, rfl⟩

namespace Machine

variable {β : Type} [StorageBackend β]

/-- The machine with another state in memory. -/
def withState (m : Machine β) (state : OathState) : Machine β :=
  { m with host := { m.host with memory := ⟨some state, m.host.memory.session⟩ } }

/-- **The counters of HOTP credentials.** In every run without a CALCULATE that names the greatest
counter on an open applet, no counter of a credential is shown twice: a CALCULATE that succeeds next
answers with the code of a counter that is recorded; and CALCULATE ALL changes nothing, and answers
the same whatever the counters are. -/
theorem counters_never_reused [FallibleBackend β] {codec : Codec StoredCredential}
    {prims : Primitives} (haead : AeadSound prims) {m : Machine β} {l : Ledger}
    (hrun : Run codec prims (fun m e => ¬m.Saturates e) m l) :
    l.shown.Nodup ∧
    (∀ apdu response, apdu.ins = insCalculate → (m.unsaved.respond apdu).1 = .ok response →
      ∃ state name cred signed, m.current = some state ∧
        IsCode m.crypto state apdu response name cred signed ∧
        (cred.oathType = .hotp → ∃ counter, counter < 2 ^ 64 ∧ signed = Bytes.beBytes 8 counter ∧
          (m.unsaved.record l (.command apdu)).shown = (l.origin name, counter) :: l.shown)) ∧
    ∀ apdu state, apdu.ins = insCalculateAll → m.current = some state →
      (m.step (.command apdu)).current = some state ∧
      (m.step (.command apdu)).host.storage = m.host.storage ∧
      ∀ other : OathState, other.access = state.access → uncounted other = uncounted state →
        ((m.withState other).respond apdu).1 = (m.respond apdu).1 := by
  have hinv := inv_run haead hrun
  refine ⟨hinv.nodup, fun apdu response hins hok => recorded_of_ok hinv.unsaved hins hok,
    fun apdu state hins hcurrent => ?_⟩
  obtain ⟨loaded, hmem, -⟩ := hinv.memory
  obtain rfl : state = loaded := Option.some.inj (hcurrent.symm.trans (current_of_memory hmem))
  obtain ⟨hanswer, hstate, hstorage⟩ := ends_calculateAll (h := m.host) hmem hinv.backend hins
  refine ⟨current_of_memory hstate, hstorage, fun other haccess hcreds => ?_⟩
  have hother : ((m.withState other).respond apdu).1 =
      allAnswer m.crypto other m.host.memory.session apdu :=
    (ends_calculateAll (h := (m.withState other).host) rfl hinv.backend hins).1
  rw [hother, allAnswer_congr m.crypto _ apdu haccess hcreds]
  exact hanswer.symm

end Machine

/-! ## Codes of one credential -/

/-- What ChaCha20-Poly1305 makes of a factory state, and of that state with a HOTP credential `a`
with the counters 0, 1, 2 and `2 ^ 64 - 1`. -/
def countAead : KnownAead where
  rows := [
    .of 0x02 0x04 (Bytes.beBytes 21 0x011003030303030303030303030303030303000000)
      (Bytes.beBytes 37
        0x1d42d7cfdfe433ba4251d5d0f61f8ca6d97b1f0196e99a3e2cf8571dd69c97b2e2ff50cec4),
    .of 0x02 0x09
      (Bytes.beBytes 49 (0x011003030303030303030303030303030303000001016111060000000000 * 2 ^ 152 +
        0x000000000e0102030405060708090a0b0c0d0e))
      (Bytes.beBytes 65
        (0x136713cecafe12e4afbac8695852d25ad6637cc0bc1ac16f3c1fcc190975c262 * 2 ^ 264
        + 0x8704a4d8135009d101a7c8ff39beb3d99dd652506362de1ff564235ed390a8f173)),
    .of 0x02 0x09
      (Bytes.beBytes 49 (0x011003030303030303030303030303030303000001016111060000000000 * 2 ^ 152 +
        0x000000010e0102030405060708090a0b0c0d0e))
      (Bytes.beBytes 65
        (0x136713cecafe12e4afbac8695852d25ad6637cc0bc1ac16f3c1fcc190975c262 * 2 ^ 264
        + 0x8705a4d8135009d101a7c8ff39beb3d99d0aee3946b49cc0c5ccd8885d092d4fda)),
    .of 0x02 0x09
      (Bytes.beBytes 49 (0x011003030303030303030303030303030303000001016111060000000000 * 2 ^ 152 +
        0x000000020e0102030405060708090a0b0c0d0e))
      (Bytes.beBytes 65
        (0x136713cecafe12e4afbac8695852d25ad6637cc0bc1ac16f3c1fcc190975c262 * 2 ^ 264
        + 0x8706a4d8135009d101a7c8ff39beb3d99d43892329065b6196348eb3e781b1ac40)),
    .of 0x02 0x09
      (Bytes.beBytes 49 (0x0110030303030303030303030303030303030000010161110600ffffffff * 2 ^ 152 +
        0xffffffff0e0102030405060708090a0b0c0d0e))
      (Bytes.beBytes 65
        (0x136713cecafe12e4afbac8695852d25ad6637cc0bc1ac16f3c1f33e6f68a3d9d * 2 ^ 264
        + 0x78fba4d8135009d101a7c8ff39beb3d99d10a1154003273f56f472447c3617d858))]
  opens := by decide +kernel
  one_key := by decide +kernel
  apart := by decide +kernel
  ne_nil := by decide +kernel

/-- The engine of a card with the master key `02..02`. -/
def countCrypto : AppletCrypto :=
  countAead.crypto (List.replicate 32 0x02) KnownAead.length_masterKey

theorem sound_countCrypto : AeadSound countCrypto.prims := KnownAead.sound _ _

/-- A medium with the factory state. -/
def countMedium : FaultyBackend :=
  ⟨(∅ : KvMap).insert "sys:oath" (List.replicate 12 0x04 ++ Bytes.beBytes 37
    0x1d42d7cfdfe433ba4251d5d0f61f8ca6d97b1f0196e99a3e2cf8571dd69c97b2e2ff50cec4), []⟩

/-- PUT of a HOTP credential named `a`. -/
def countPut : Apdu :=
  ⟨0, 0x01, 0, 0,
    [0x71, 0x01, 0x61, 0x73, 16, 0x11, 0x06, 1, 2, 3, 4, 5, 6, 7, 8, 9, 10, 11, 12, 13,
    14], none⟩

/-- CALCULATE of that credential. -/
def countCalculate (challenge : Bytes) : Apdu :=
  ⟨0, 0xA2, 0, 0, [0x71, 0x01, 0x61, 0x74, UInt8.ofNat challenge.length] ++ challenge, none⟩

/-- A boot on that medium. -/
def countBoot : Machine FaultyBackend :=
  .boot countCrypto (.withBackend unusedCodec countMedium) (KnownAead.constantDraws 0x09)

/-- The greatest counter is shown twice. -/
theorem greatest_counter_reused : AeadSound countCrypto.prims ∧
    ∃ (m : Machine FaultyBackend) (l : Ledger),
      Machine.Run unusedCodec countCrypto.prims (fun _ _ => True) m l ∧ ¬l.shown.Nodup := by
  refine ⟨sound_countCrypto, _, _, .step (.command (countCalculate (List.replicate 8 0xFF)))
    (.step (.command (countCalculate (List.replicate 8 0xFF))) (.step (.command countPut)
      (.boot countCrypto countMedium (KnownAead.constantDraws 0x09) rfl) trivial trivial)
      trivial trivial) trivial trivial, ?_⟩
  decide +kernel

/-- Two codes with the internal counter. -/
theorem counters_never_reused_twice : ∃ (m : Machine FaultyBackend) (l : Ledger),
    Machine.Run unusedCodec countCrypto.prims (fun m e => ¬m.Saturates e) m l ∧
      l.shown = [(.put 0, 1), (.put 0, 0)] ∧ l.shown.Nodup := by
  have hput : ∀ m : Machine FaultyBackend, ¬m.Saturates (.command countPut) := by
    rintro m ⟨_, name, challenge, state, cred, happ, -, hins, -⟩
    cases happ
    exact absurd hins (by decide)
  have hinternal : ∀ m : Machine FaultyBackend, ¬m.Saturates (.command (countCalculate [])) := by
    rintro m ⟨_, name, challenge, state, cred, happ, -, -, hparsed, -, -, -, -, hlen, -⟩
    cases happ
    have hempty : parseCalculate 0 (countCalculate []).data = .ok ([0x61], []) := by decide
    cases hempty.symm.trans hparsed
    cases hlen
  have hboot : Machine.Run unusedCodec countCrypto.prims (fun m e => ¬m.Saturates e) countBoot
      .first := .boot _ _ _ rfl
  have hrun := ((hboot.step _ (hput _) trivial).step _ (hinternal _) trivial).step _ (hinternal _)
    trivial
  exact ⟨_, _, hrun, by decide +kernel, (Machine.counters_never_reused sound_countCrypto hrun).1⟩

end Oath

end OpenKey
