import Mathlib.Data.Finset.Card
import OpenKey.Device.HidLoop

/-!
# The channels of CTAPHID

Runs of `allocate_cid` and `release_cid` of `crates/openkey-transport/src/ctaphid/channel.rs` on a
`ChannelManager`.

**Channel allocation (`channels_of_reachable`).** In every state of a run the active channels differ
pairwise, and none of them is 0 or the broadcast channel, however often the counter has wrapped. As
long as fewer than 2^32 - 2 channels are active, the search of `allocate_cid` ends with one that is
not.

**The loop of the firmware (`channels_granted`).** It hands out channels that differ, and answers
every message that the assembler puts together, but for one case. It never releases a channel, so an
INIT that comes when all of them are handed out is not answered, and nothing is after it.

The counter comes past every number once in 2^32 turns. The active channels and the two reserved
ones are fewer than that, so the search comes past one that is free. With all of them active it goes
on for ever (`allocateLoop_hangs`).
-/

namespace OpenKey

open Ctaphid

set_option autoImplicit false

/-- Fewer than 2^32 numbers leave one out. -/
theorem exists_notMem_of_length_lt {taken : List UInt32} (h : taken.length < 2 ^ 32) :
    ∃ cid, cid ∉ taken := by
  have hcard : (taken.map UInt32.toNat).toFinset.card < (Finset.range (2 ^ 32)).card := by
    rw [Finset.card_range]
    exact (List.toFinset_card_le _).trans_lt (by rwa [List.length_map])
  obtain ⟨n, hn, hfree⟩ := Finset.exists_mem_notMem_of_card_lt_card hcard
  refine ⟨UInt32.ofNat n, fun hmem => hfree ?_⟩
  rw [List.mem_toFinset, List.mem_map]
  exact ⟨_, hmem, UInt32.toNat_ofNat_of_lt' (Finset.mem_range.mp hn)⟩

theorem toNat_subset_range (taken : List UInt32) :
    (taken.map UInt32.toNat).toFinset ⊆ Finset.range (2 ^ 32) := by
  intro n hn
  rw [List.mem_toFinset, List.mem_map] at hn
  obtain ⟨other, -, rfl⟩ := hn
  exact Finset.mem_range.mpr other.toNat_lt

theorem card_toNat {taken : List UInt32} (hnodup : taken.Nodup) :
    (taken.map UInt32.toNat).toFinset.card = taken.length := by
  have hinj : Function.Injective UInt32.toNat := fun _ _ => UInt32.toNat_inj.mp
  rw [List.toFinset_card_of_nodup (hnodup.map hinj), List.length_map]

/-- There are no more than 2^32 numbers. -/
theorem length_le_of_nodup {taken : List UInt32} (hnodup : taken.Nodup) :
    taken.length ≤ 2 ^ 32 := by
  have hcard := Finset.card_le_card (toNat_subset_range taken)
  rwa [card_toNat hnodup, Finset.card_range] at hcard

/-- As many numbers as there are leave none out. -/
theorem mem_of_nodup_of_length_ge {taken : List UInt32} (hnodup : taken.Nodup)
    (h : 2 ^ 32 ≤ taken.length) (cid : UInt32) : cid ∈ taken := by
  have hcard : (Finset.range (2 ^ 32)).card ≤ (taken.map UInt32.toNat).toFinset.card := by
    rwa [Finset.card_range, card_toNat hnodup]
  have hinj : Function.Injective UInt32.toNat := fun _ _ => UInt32.toNat_inj.mp
  have hall := Finset.eq_of_subset_of_card_le (toNat_subset_range taken) hcard
  have hmem : cid.toNat ∈ (taken.map UInt32.toNat).toFinset := by
    rw [hall]
    exact Finset.mem_range.mpr cid.toNat_lt
  rw [List.mem_toFinset, List.mem_map] at hmem
  obtain ⟨other, hother, heq⟩ := hmem
  exact hinj heq ▸ hother

namespace ChannelManager

/-- `release_cid`. -/
def releaseCid (cid : UInt32) : Prog ChannelManager Fault Unit :=
  Prog.update fun m => { m with activeChannels := m.activeChannels.filter (· ≠ cid) }

/-! ## The search -/

/-- The search does not stop at this number. -/
def Taken (m : ChannelManager) (cid : UInt32) : Prop :=
  cid = invalidCid ∨ cid = broadcastCid ∨ cid ∈ m.activeChannels

instance (m : ChannelManager) (cid : UInt32) : Decidable (m.Taken cid) :=
  inferInstanceAs (Decidable (_ ∨ _ ∨ _))

/-- The counter one further. -/
def skip (m : ChannelManager) : ChannelManager := { m with nextCid := m.nextCid + 1 }

/-- The number of the counter handed out. -/
def grant (m : ChannelManager) : ChannelManager :=
  ⟨m.nextCid + 1, m.activeChannels ++ [m.nextCid]⟩

theorem run_allocateLoop_taken {m : ChannelManager} (h : m.Taken m.nextCid) (fuel : Nat) :
    (allocateLoop (fuel + 1)).run m = (allocateLoop fuel).run m.skip := by
  have htaken : m.nextCid = invalidCid ∨ m.nextCid = broadcastCid ∨
      m.nextCid ∈ m.activeChannels := h
  simp only [allocateLoop, Prog.run_act_bind, Prog.run_read_bind]
  rw [if_pos (decide_eq_true htaken)]
  rfl

theorem run_allocateLoop_free {m : ChannelManager} (h : ¬m.Taken m.nextCid) (fuel : Nat) :
    (allocateLoop (fuel + 1)).run m = (.ok m.nextCid, m.grant) := by
  have hfree : ¬(m.nextCid = invalidCid ∨ m.nextCid = broadcastCid ∨
      m.nextCid ∈ m.activeChannels) := h
  simp only [allocateLoop, Prog.run_act_bind, Prog.run_read_bind]
  rw [if_neg (by simpa only [decide_eq_true_eq] using hfree)]
  rfl

/-- The search ends at a number that is free, and makes it active. -/
theorem allocateLoop_eq_ok {fuel : Nat} {m m' : ChannelManager} {cid : UInt32}
    (h : (allocateLoop fuel).run m = (.ok cid, m')) :
    ¬m.Taken cid ∧ m'.activeChannels = m.activeChannels ++ [cid] := by
  induction fuel generalizing m with
  | zero => cases h
  | succ fuel ih =>
      by_cases htaken : m.Taken m.nextCid
      · rw [run_allocateLoop_taken htaken] at h
        have hskip := ih h
        exact hskip
      · rw [run_allocateLoop_free htaken] at h
        cases h
        exact ⟨htaken, rfl⟩

/-- The search does not go past a number that is free. -/
theorem allocateLoop_ends {m : ChannelManager} (n : Nat)
    (h : ¬m.Taken (m.nextCid + UInt32.ofNat n)) :
    ∃ rounds ≤ n + 1, ∃ cid m', ∀ fuel ≥ rounds,
      (allocateLoop fuel).run m = (.ok cid, m') := by
  induction n generalizing m with
  | zero =>
      have hfree : ¬m.Taken m.nextCid := by simpa using h
      refine ⟨1, le_rfl, m.nextCid, m.grant, fun fuel hfuel => ?_⟩
      obtain ⟨fuel, rfl⟩ := Nat.exists_eq_add_of_le' hfuel
      exact run_allocateLoop_free hfree fuel
  | succ n ih =>
      by_cases htaken : m.Taken m.nextCid
      · have hnext : ¬m.skip.Taken (m.skip.nextCid + UInt32.ofNat n) := by
          have hsum : m.skip.nextCid + UInt32.ofNat n = m.nextCid + UInt32.ofNat (n + 1) := by
            rw [UInt32.ofNat_add, UInt32.add_comm (UInt32.ofNat n), ← UInt32.add_assoc]
            rfl
          rw [hsum]
          exact h
        obtain ⟨rounds, hrounds, cid, m', hrun⟩ := ih hnext
        refine ⟨rounds + 1, Nat.succ_le_succ hrounds, cid, m', fun fuel hfuel => ?_⟩
        obtain ⟨fuel, rfl⟩ := Nat.exists_eq_add_of_le' (Nat.one_le_of_lt hfuel)
        rw [run_allocateLoop_taken htaken]
        exact hrun fuel (Nat.le_of_succ_le_succ hfuel)
      · refine ⟨1, Nat.le_add_left 1 _, m.nextCid, m.grant, fun fuel hfuel => ?_⟩
        obtain ⟨fuel, rfl⟩ := Nat.exists_eq_add_of_le' hfuel
        exact run_allocateLoop_free htaken fuel

/-- With fewer than 2^32 - 2 active channels it ends within one round over the numbers. -/
theorem allocateLoop_ends_of_lt {m : ChannelManager} (h : m.activeChannels.length < 2 ^ 32 - 2) :
    ∃ rounds ≤ 2 ^ 32, ∃ cid m', ∀ fuel ≥ rounds,
      (allocateLoop fuel).run m = (.ok cid, m') := by
  have hlength : (invalidCid :: broadcastCid :: m.activeChannels).length < 2 ^ 32 := by
    rw [List.length_cons, List.length_cons]
    omega
  obtain ⟨cid, hfree⟩ := exists_notMem_of_length_lt hlength
  have hturn : m.nextCid + UInt32.ofNat (cid - m.nextCid).toNat = cid := by
    rw [UInt32.ofNat_toNat, UInt32.add_comm, UInt32.sub_add_cancel]
  have hends : ¬m.Taken (m.nextCid + UInt32.ofNat (cid - m.nextCid).toNat) := by
    rw [hturn]
    simpa [Taken] using hfree
  obtain ⟨rounds, hrounds, found⟩ := allocateLoop_ends _ hends
  exact ⟨rounds, hrounds.trans (cid - m.nextCid).toNat_lt, found⟩

/-- With every channel active it does not end. -/
theorem allocateLoop_hangs {m : ChannelManager} (h : ∀ cid, m.Taken cid) (fuel : Nat) :
    ((allocateLoop fuel).run m).1 = .error .hang := by
  induction fuel generalizing m with
  | zero => rfl
  | succ fuel ih =>
      rw [run_allocateLoop_taken (h _)]
      exact ih h

/-! ## Runs -/

/-- What a run is made of. -/
inductive Operation
  | allocate
  | release (cid : UInt32)

/-- An operation, without the channel that is returned. -/
def Operation.perform : Operation → Prog ChannelManager Fault Unit
  | .allocate => do
      let _ ← allocateCid
      pure ()
  | .release cid => releaseCid cid

/-- The states of the runs that start with a new manager. -/
inductive Reachable : ChannelManager → Prop
  | new : Reachable new
  | step {m m' : ChannelManager} (h : Reachable m) (operation : Operation)
      (hrun : operation.perform.run m = (.ok (), m')) : Reachable m'

/-- The active channels differ, and none is reserved. -/
structure Distinct (m : ChannelManager) : Prop where
  nodup : m.activeChannels.Nodup
  invalid : invalidCid ∉ m.activeChannels
  broadcast : broadcastCid ∉ m.activeChannels

/-- The counter has no part in it. -/
theorem Distinct.of_active {m m' : ChannelManager} (h : Distinct m)
    (hactive : m'.activeChannels = m.activeChannels) : Distinct m' :=
  ⟨hactive ▸ h.nodup, hactive ▸ h.invalid, hactive ▸ h.broadcast⟩

theorem Distinct.reserved_nodup {m : ChannelManager} (h : Distinct m) :
    (invalidCid :: broadcastCid :: m.activeChannels).Nodup := by
  refine List.nodup_cons.mpr ⟨?_, List.nodup_cons.mpr ⟨h.broadcast, h.nodup⟩⟩
  rw [List.mem_cons]
  exact fun hmem => hmem.elim (by decide) h.invalid

theorem Distinct.length_le {m : ChannelManager} (h : Distinct m) :
    m.activeChannels.length ≤ 2 ^ 32 - 2 := by
  have hlength := length_le_of_nodup h.reserved_nodup
  rw [List.length_cons, List.length_cons] at hlength
  omega

theorem Distinct.grant {m m' : ChannelManager} (h : Distinct m) {cid : UInt32}
    (hfree : ¬m.Taken cid) (hactive : m'.activeChannels = m.activeChannels ++ [cid]) :
    Distinct m' := by
  have hinvalid : invalidCid ≠ cid := fun heq => hfree (.inl heq.symm)
  have hbroadcast : broadcastCid ≠ cid := fun heq => hfree (.inr (.inl heq.symm))
  have hfresh : cid ∉ m.activeChannels := fun hmem => hfree (.inr (.inr hmem))
  constructor
  · rw [hactive]
    exact h.nodup.append (List.nodup_singleton cid) (List.disjoint_singleton.mpr hfresh)
  · rw [hactive, List.mem_append, List.mem_singleton]
    exact fun hmem => hmem.elim h.invalid hinvalid
  · rw [hactive, List.mem_append, List.mem_singleton]
    exact fun hmem => hmem.elim h.broadcast hbroadcast

theorem Distinct.release {m : ChannelManager} (h : Distinct m) (cid : UInt32) :
    Distinct ((releaseCid cid).run m).2 :=
  ⟨h.nodup.filter _, fun hmem => h.invalid (List.mem_filter.mp hmem).1,
    fun hmem => h.broadcast (List.mem_filter.mp hmem).1⟩

theorem distinct_new : Distinct new := ⟨List.nodup_nil, List.not_mem_nil, List.not_mem_nil⟩

theorem distinct_of_reachable {m : ChannelManager} (h : Reachable m) : Distinct m := by
  induction h with
  | new => exact distinct_new
  | step h operation hrun ih =>
      cases operation with
      | allocate =>
          obtain ⟨cid, m', hallocate, hdone⟩ := Prog.bind_eq_ok.mp hrun
          cases hdone
          obtain ⟨hfree, hactive⟩ := allocateLoop_eq_ok hallocate
          exact ih.grant hfree hactive
      | release cid =>
          cases hrun
          exact ih.release cid

/-- In every state of a run the active channels differ and none is reserved, and the search ends
with a channel that is not active if fewer than 2^32 - 2 are. -/
theorem channels_of_reachable {m : ChannelManager} (h : Reachable m) :
    m.activeChannels.Nodup ∧ invalidCid ∉ m.activeChannels ∧ broadcastCid ∉ m.activeChannels ∧
      (m.activeChannels.length < 2 ^ 32 - 2 →
        ∃ rounds ≤ 2 ^ 32, ∃ cid m',
          (∀ fuel ≥ rounds, (allocateLoop fuel).run m = (.ok cid, m')) ∧
          cid ∉ m.activeChannels ∧ cid ≠ invalidCid ∧ cid ≠ broadcastCid ∧
          m'.activeChannels = m.activeChannels ++ [cid]) := by
  obtain ⟨hnodup, hinvalid, hbroadcast⟩ := distinct_of_reachable h
  refine ⟨hnodup, hinvalid, hbroadcast, fun hlt => ?_⟩
  obtain ⟨rounds, hrounds, cid, m', hrun⟩ := allocateLoop_ends_of_lt hlt
  obtain ⟨hfree, hactive⟩ := allocateLoop_eq_ok (hrun rounds le_rfl)
  exact ⟨rounds, hrounds, cid, m', hrun, fun hmem => hfree (.inr (.inr hmem)),
    fun heq => hfree (.inl heq), fun heq => hfree (.inr (.inl heq)), hactive⟩

/-- One channel handed out, the next one is found. -/
theorem second_channel :
    ∃ rounds ≤ 2 ^ 32, ∃ cid m',
      (∀ fuel ≥ rounds, (allocateLoop fuel).run ⟨0x00010002, [0x00010001]⟩ = (.ok cid, m')) ∧
      cid ∉ [(0x00010001 : UInt32)] ∧ cid ≠ invalidCid ∧ cid ≠ broadcastCid ∧
      m'.activeChannels = [0x00010001] ++ [cid] :=
  (channels_of_reachable (.step .new .allocate rfl)).2.2.2 (by decide)

/-- With 2^32 - 2 active channels the search does not end. -/
theorem Distinct.hangs {m : ChannelManager} (h : Distinct m)
    (hfull : 2 ^ 32 - 2 ≤ m.activeChannels.length) (fuel : Nat) :
    ((allocateLoop fuel).run m).1 = .error .hang := by
  refine allocateLoop_hangs (fun cid => ?_) fuel
  have hmem := mem_of_nodup_of_length_ge h.reserved_nodup
    (by rw [List.length_cons, List.length_cons]; omega) cid
  simpa [Taken] using hmem

/-! ## The loop of the firmware -/

/-- An answer to INIT carries a channel that was free and is active now. -/
theorem buildInitResponse_eq_ok {nonce payload : Bytes} {m m' : ChannelManager}
    (h : (buildInitResponse nonce).run m = (.ok payload, m')) :
    ¬m.Taken (UInt32.ofNat (Bytes.beNat ((payload.drop 8).take 4))) ∧
      m'.activeChannels =
        m.activeChannels ++ [UInt32.ofNat (Bytes.beNat ((payload.drop 8).take 4))] := by
  obtain ⟨cid, next, hallocate, hpayload⟩ := Prog.bind_eq_ok.mp h
  cases hpayload
  have hfield : ((nonce.take 8 ++ List.replicate (8 - nonce.length) 0 ++
      Bytes.beBytes 4 cid.toNat ++ [2, 0, 1, 0, 0x0D]).drop 8).take 4 =
        Bytes.beBytes 4 cid.toNat := by
    have hfront : (nonce.take 8 ++ List.replicate (8 - nonce.length) (0 : UInt8)).length = 8 := by
      rw [List.length_append, List.length_take, List.length_replicate]
      omega
    rw [List.append_assoc (_ ++ _), List.drop_left' hfront,
      List.take_left' (Bytes.length_beBytes 4 _)]
  rw [hfield, Bytes.beNat_beBytes_of_lt cid.toNat_lt, UInt32.ofNat_toNat]
  exact allocateLoop_eq_ok hallocate

/-- It fails only with all channels active. -/
theorem buildInitResponse_eq_error {nonce : Bytes} {m m' : ChannelManager} {fault : Fault}
    (h : (buildInitResponse nonce).run m = (.error fault, m')) :
    2 ^ 32 - 2 ≤ m.activeChannels.length := by
  by_contra hlt
  obtain ⟨rounds, hrounds, cid, next, hrun⟩ := allocateLoop_ends_of_lt (Nat.not_le.mp hlt)
  have hallocate : allocateCid.run m = (.ok cid, next) := hrun _ hrounds
  rw [buildInitResponse, Prog.run_bind_of_ok hallocate] at h
  cases h

end ChannelManager

namespace HidLoop

open ChannelManager (Distinct)

variable {β : Type} [StorageBackend β] (build : Build)
  (encode : CtapResponse → Except Ctap2Error Bytes)

/-- The messages that the assembler puts together. -/
def completed (assembler : CtaphidAssembler) : List RawPacket → List CtaphidMessage
  | [] => []
  | raw :: rest =>
      match (CtaphidAssembler.processPacket raw).run assembler with
      | (.ok (some m), assembler) => m :: completed assembler rest
      | (_, assembler) => completed assembler rest

/-- What a run leaves of the messages: nothing, or all from an INIT on that came when every channel
was handed out. The search for a channel goes on for ever then. -/
inductive Leaves (handled : List (Handled β)) (messages : List CtaphidMessage) : Prop
  | nothing (all : handled.map (·.message) = messages)
  | fromInit (m : CtaphidMessage) (rest : List CtaphidMessage)
      (all : messages = handled.map (·.message) ++ m :: rest) (init : m.cmd = .init)
      (out : (granted handled).length = 2 ^ 32 - 2)
      (hangs : ∀ channels : ChannelManager, channels.activeChannels = granted handled →
        ∀ fuel, ((ChannelManager.allocateLoop fuel).run channels).1 = .error .hang)

/-- The channel in the answer to a message. -/
def answered (answer : CtaphidMessage) : UInt32 :=
  UInt32.ofNat (Bytes.beNat ((answer.payload.drop 8).take 4))

omit [StorageBackend β] in
theorem granted_cons_init {x : Handled β} (h : x.message.cmd = .init) (rest : List (Handled β)) :
    granted (x :: rest) = answered x.answer :: granted rest :=
  List.filterMap_cons_some (if_pos h)

omit [StorageBackend β] in
theorem granted_cons_other {x : Handled β} (h : x.message.cmd ≠ .init) (rest : List (Handled β)) :
    granted (x :: rest) = granted rest :=
  List.filterMap_cons_none (if_neg h)

/-- Every message but INIT is answered, and leaves the channels alone. -/
theorem dispatch_other {m : CtaphidMessage} (hcmd : m.cmd ≠ .init) (f : HidLoop β) :
    ∃ answer next, (dispatch build encode m).run f = (.ok answer, next) ∧
      next.assembler = f.assembler ∧ next.channels = f.channels := by
  obtain ⟨cid, cmd, payload⟩ := m
  cases cmd with
  | init => exact absurd rfl hcmd
  | cbor => cases payload <;> exact ⟨_, _, rfl, rfl, rfl⟩
  | _ => exact ⟨_, _, rfl, rfl, rfl⟩

/-- INIT makes the channel of its answer active, which was free. It has none if no channel is. -/
theorem dispatch_init {m : CtaphidMessage} (hcmd : m.cmd = .init) {f : HidLoop β}
    (hdistinct : Distinct f.channels) :
    (∃ answer next, (dispatch build encode m).run f = (.ok answer, next) ∧
      next.assembler = f.assembler ∧ Distinct next.channels ∧
      next.channels.activeChannels = f.channels.activeChannels ++ [answered answer]) ∨
    ∃ fault next, (dispatch build encode m).run f = (.error fault, next) ∧
      2 ^ 32 - 2 ≤ f.channels.activeChannels.length := by
  obtain ⟨cid, cmd, nonce⟩ := m
  subst hcmd
  cases hbuild : (ChannelManager.buildInitResponse nonce).run f.channels with
  | mk result channels =>
      have hzoom : (Prog.zoom HidLoop.channels (fun channels f => { f with channels := channels })
          (ChannelManager.buildInitResponse nonce)).run f =
            (result, { f with channels := channels }) := by
        rw [Prog.run_zoom, hbuild]
      cases result with
      | error fault =>
          exact .inr ⟨fault, _, Prog.run_bind_of_error hzoom,
            ChannelManager.buildInitResponse_eq_error hbuild⟩
      | ok payload =>
          obtain ⟨hfree, hactive⟩ := ChannelManager.buildInitResponse_eq_ok hbuild
          exact .inl ⟨_, _, Prog.run_bind_of_ok hzoom, rfl, hdistinct.grant hfree hactive, hactive⟩

/-! ### One packet -/

section

variable {raw : RawPacket} {assembler : CtaphidAssembler}

theorem completed_cons {found : Except (UInt32 × CtaphidErrorCode) (Option CtaphidMessage)}
    {next : CtaphidAssembler} (h : (CtaphidAssembler.processPacket raw).run assembler =
      (found, next)) (rest : List RawPacket) :
    completed assembler (raw :: rest) =
      (found.toOption.join.toList ++ completed next rest) := by
  rw [completed, h]
  rcases found with _ | _ | m <;> rfl

variable {f : HidLoop β} {m : CtaphidMessage}

theorem trace_cons_none {found : Except (UInt32 × CtaphidErrorCode) (Option CtaphidMessage)}
    (h : (CtaphidAssembler.processPacket raw).run f.assembler = (found, assembler))
    (hnone : found.toOption.join = none) (rest : List RawPacket) :
    trace build encode f (raw :: rest) =
      trace build encode { f with assembler := assembler } rest := by
  rw [trace, h]
  rcases found with _ | _ | m
  · rfl
  · rfl
  · cases hnone

theorem trace_cons_ok {answer : CtaphidMessage} {next : HidLoop β}
    (h : (CtaphidAssembler.processPacket raw).run f.assembler = (.ok (some m), assembler))
    (hrun : (dispatch build encode m).run { f with assembler := assembler } = (.ok answer, next))
    (rest : List RawPacket) :
    trace build encode f (raw :: rest) =
      ⟨m, answer, f.auth, next.auth⟩ :: trace build encode next rest := by
  rw [trace, h]
  simp only [hrun]

theorem trace_cons_error {fault : Fault} {next : HidLoop β}
    (h : (CtaphidAssembler.processPacket raw).run f.assembler = (.ok (some m), assembler))
    (hrun : (dispatch build encode m).run { f with assembler := assembler } =
      (.error fault, next)) (rest : List RawPacket) :
    trace build encode f (raw :: rest) = [] := by
  rw [trace, h]
  simp only [hrun]

end

/-! ### A run -/

/-- After channels that were active, a run has handed out further ones that differ, and what it has
left of the messages starts with an INIT for which there was none. -/
def Accounts (active : List UInt32) (handled : List (Handled β)) (messages : List CtaphidMessage) :
    Prop :=
  ∃ channels : ChannelManager, Distinct channels ∧
    channels.activeChannels = active ++ granted handled ∧
    (handled.map (·.message) = messages ∨ ∃ m rest,
      messages = handled.map (·.message) ++ m :: rest ∧ m.cmd = .init ∧
        2 ^ 32 - 2 ≤ channels.activeChannels.length)

omit [StorageBackend β] in
/-- One more message that was answered first. -/
theorem Accounts.cons {active active' : List UInt32} {x : Handled β} {handled : List (Handled β)}
    {messages : List CtaphidMessage} (h : Accounts active' handled messages)
    (hactive : active' ++ granted handled = active ++ granted (x :: handled)) :
    Accounts active (x :: handled) (x.message :: messages) := by
  obtain ⟨channels, hdistinct, hchannels, hleft⟩ := h
  refine ⟨channels, hdistinct, hchannels.trans hactive, ?_⟩
  rcases hleft with rfl | ⟨m, rest, rfl, hcmd, hfull⟩
  · exact .inl rfl
  · exact .inr ⟨m, rest, rfl, hcmd, hfull⟩

theorem accounts_trace (f : HidLoop β) (hdistinct : Distinct f.channels)
    (stream : List RawPacket) :
    Accounts f.channels.activeChannels (trace build encode f stream)
      (completed f.assembler stream) := by
  induction stream generalizing f with
  | nil => exact ⟨f.channels, hdistinct, (List.append_nil _).symm, .inl rfl⟩
  | cons raw rest ih =>
      cases hpacket : (CtaphidAssembler.processPacket raw).run f.assembler with
      | mk found assembler =>
          rw [completed_cons hpacket]
          cases hmessage : found.toOption.join with
          | none =>
              rw [trace_cons_none build encode hpacket hmessage]
              exact ih { f with assembler := assembler } hdistinct
          | some m =>
              obtain rfl : found = .ok (some m) := by
                rcases found with _ | _ | found <;> cases hmessage
                rfl
              by_cases hcmd : m.cmd = .init
              · obtain ⟨answer, next, hrun, hkept, hnext, hactive⟩ | ⟨fault, next, hrun, hfull⟩ :=
                  dispatch_init build encode hcmd (f := { f with assembler := assembler }) hdistinct
                · rw [trace_cons_ok build encode hpacket hrun,
                    show assembler = next.assembler from hkept.symm]
                  refine (ih next hnext).cons ?_
                  rw [hactive, granted_cons_init hcmd, List.append_assoc]
                  rfl
                · rw [trace_cons_error build encode hpacket hrun]
                  exact ⟨f.channels, hdistinct, (List.append_nil _).symm,
                    .inr ⟨m, completed assembler rest, rfl, hcmd, hfull⟩⟩
              · obtain ⟨answer, next, hrun, hkept, hchannels⟩ :=
                  dispatch_other build encode hcmd { f with assembler := assembler }
                rw [trace_cons_ok build encode hpacket hrun,
                  show assembler = next.assembler from hkept.symm]
                refine (ih next (hchannels ▸ hdistinct)).cons ?_
                rw [hchannels, granted_cons_other hcmd]

end HidLoop

end OpenKey
