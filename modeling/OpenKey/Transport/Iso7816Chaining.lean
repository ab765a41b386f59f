import OpenKey.Transport.Iso7816

/-!
# Response chaining

A response that does not fit is handed out in pieces. The invariant is what is left of it: each
GET RESPONSE takes a piece off the front, and the last piece carries the applet's status word. A
command other than GET RESPONSE starts from nothing.
-/

namespace OpenKey

set_option autoImplicit false

/-! ## Lengths that a command asks for -/

theorem leFromByte_pos (b : UInt8) : 0 < leFromByte b := by
  unfold leFromByte
  split
  · decide
  · next h => exact Nat.pos_of_ne_zero fun hzero => h (UInt8.toNat_inj.mp hzero)

theorem leFromPair_pos (hi lo : UInt8) : 0 < leFromPair hi lo := by
  unfold leFromPair
  simp only
  split
  · decide
  · next h => exact Nat.pos_of_ne_zero h

theorem Apdu.parseExtended_le_pos {cla ins p1 p2 hi lo : UInt8} {body : Bytes} {apdu : Apdu}
    (h : Apdu.parseExtended cla ins p1 p2 hi lo body = .ok apdu) {n : Nat}
    (hn : apdu.le = some n) : 0 < n := by
  unfold Apdu.parseExtended at h
  simp only at h
  split at h
  · cases h
  · split at h
    · cases h
      cases hn
    · cases h
      cases hn
      exact leFromPair_pos _ _
    · cases h

theorem Apdu.parseShort_le_pos {cla ins p1 p2 lc : UInt8} {body : Bytes} {apdu : Apdu}
    (h : Apdu.parseShort cla ins p1 p2 lc body = .ok apdu) {n : Nat}
    (hn : apdu.le = some n) : 0 < n := by
  unfold Apdu.parseShort at h
  split at h
  · cases h
  · split at h
    · cases h
      cases hn
    · cases h
      cases hn
      exact leFromByte_pos _
    · cases h

/-- A command never asks for no bytes. -/
theorem Apdu.le_pos {raw : Bytes} {apdu : Apdu} (h : Apdu.parse raw = .ok apdu) {n : Nat}
    (hn : apdu.le = some n) : 0 < n := by
  unfold Apdu.parse at h
  -- one case per form of the command
  split at h
  · split at h
    · cases h
      cases hn
    · cases h
      cases hn
      exact leFromByte_pos _
    · split at h
      · split at h
        · cases h
          cases hn
          exact leFromByte_pos _
        · cases h
          cases hn
          exact leFromPair_pos _ _
        · exact Apdu.parseExtended_le_pos h hn
      · exact Apdu.parseShort_le_pos h hn
  · cases h

/-- `61 XX` names the number of bytes left, up to 255. -/
theorem toNat_swMoreData (n : Nat) :
    (swMoreData n).toNat = 0x6100 + if n ≤ 255 then n else 0 := by
  unfold swMoreData
  by_cases h : n ≤ 255
  · rw [if_neg (Nat.not_lt.mpr h), if_pos h]
    have hall : ∀ m : Fin 256, (0x6100 ||| UInt16.ofNat m.1).toNat = 0x6100 + m.1 := by
      decide +kernel
    exact hall ⟨n, Nat.lt_succ_of_le h⟩
  · rw [if_pos (Nat.lt_of_not_le h), if_neg h]
    rfl

namespace CardRouter

variable {γ : Type} (applets : List (CardApplet γ))

/-- The answers to commands, up to the first that does not return one. -/
def answers (r : CardRouter γ) : List Bytes → List ResponseData
  | [] => []
  | raw :: rest =>
      match (process applets raw).run r with
      | (.ok response, next) => response :: answers next rest
      | (.error _, _) => []

/-- A GET RESPONSE command. -/
def IsGetResponse (raw : Bytes) : Prop := ∃ apdu, Apdu.parse raw = .ok apdu ∧ apdu.ins = 0xC0

/-- Answers that hand out what is left of a response: pieces off the front, `61 XX` on each but
the last, the status word on the last, and nothing after it. -/
def HandsOut (sw : UInt16) : Option Bytes → List ResponseData → Prop
  | _, [] => True
  | none, piece :: rest => piece = .withSw [] swConditionsNotSatisfied ∧ HandsOut sw none rest
  | some left, piece :: rest => ∃ more, left = piece.data ++ more ∧ piece.data ≠ [] ∧
      ((more = [] ∧ piece.sw = some sw ∧ HandsOut sw none rest) ∨
        (more ≠ [] ∧ piece.sw = some (swMoreData more.length) ∧ HandsOut sw (some more) rest))

/-- What is left of the response that is being handed out. -/
def Left (r : CardRouter γ) (sw : UInt16) : Option Bytes → Prop
  | none => r.chain = none
  | some left => left ≠ [] ∧ ∃ chain, r.chain = some chain ∧ chain.finalSw = sw ∧
      chain.buf.drop chain.pos = left

theorem run_getResponse {raw : Bytes} {apdu : Apdu} (hparse : Apdu.parse raw = .ok apdu)
    (hins : apdu.ins = 0xC0) (r : CardRouter γ) :
    (process applets raw).run r = (serveGetResponse apdu.le).run r := by
  unfold process
  simp only [hparse]
  rw [if_pos hins]

/-- One GET RESPONSE while something is left. -/
theorem run_serveGetResponse {r : CardRouter γ} {sw : UInt16} {left : Bytes} {le : Option Nat}
    (hleft : Left r sw (some left)) (hle : ∀ n, le = some n → 0 < n) :
    ∃ piece more next, (serveGetResponse le).run r = (.ok piece, next) ∧
      left = piece.data ++ more ∧ piece.data ≠ [] ∧
      ((more = [] ∧ piece.sw = some sw ∧ Left next sw none) ∨
        (more ≠ [] ∧ piece.sw = some (swMoreData more.length) ∧ Left next sw (some more))) := by
  obtain ⟨hne, chain, hchain, rfl, rfl⟩ := hleft
  have hlong : 0 < chain.buf.length - chain.pos := by
    rw [← List.length_drop]
    exact List.length_pos_iff.mpr hne
  have hask : 0 < le.getD 256 := by
    cases le with
    | none => decide
    | some n => exact hle n rfl
  have hrun : (serveGetResponse le).run r =
      (if chain.pos + min (le.getD 256) (chain.buf.length - chain.pos) = chain.buf.length then
        pure (.withSw ((chain.buf.drop chain.pos).take
          (min (le.getD 256) (chain.buf.length - chain.pos))) chain.finalSw)
      else do
        Prog.update fun r => { r with chain := some { chain with
          pos := chain.pos + min (le.getD 256) (chain.buf.length - chain.pos) } }
        pure (.withSw ((chain.buf.drop chain.pos).take
          (min (le.getD 256) (chain.buf.length - chain.pos))) (swMoreData (chain.buf.length -
            (chain.pos + min (le.getD 256) (chain.buf.length - chain.pos)))))
        : Prog (CardRouter γ) Fault ResponseData).run { r with chain := none } := by
    rw [serveGetResponse, Prog.run_act_bind]
    simp only [hchain]
  generalize hn : min (le.getD 256) (chain.buf.length - chain.pos) = n at hrun
  have hdata : ((chain.buf.drop chain.pos).take n) ≠ [] := by
    intro hnil
    have hlen := congrArg List.length hnil
    rw [List.length_take, List.length_drop, List.length_nil] at hlen
    omega
  rw [hrun]
  by_cases hlast : chain.pos + n = chain.buf.length
  · rw [if_pos hlast]
    refine ⟨_, [], _, rfl, ?_, hdata, .inl ⟨rfl, rfl, rfl⟩⟩
    show _ = (chain.buf.drop chain.pos).take n ++ []
    rw [List.append_nil, List.take_of_length_le]
    rw [List.length_drop]
    omega
  · rw [if_neg hlast]
    have hmore : chain.buf.drop (chain.pos + n) ≠ [] := by
      rw [Ne, List.drop_eq_nil_iff]
      omega
    refine ⟨_, chain.buf.drop (chain.pos + n), _, rfl, ?_, hdata, .inr ⟨hmore, ?_, hmore, _, rfl,
      rfl, rfl⟩⟩
    · show _ = (chain.buf.drop chain.pos).take n ++ _
      rw [← List.drop_drop, List.take_append_drop]
    · rw [List.length_drop]
      rfl

/-- GET RESPONSE commands hand out what is left. -/
theorem handsOut_gets {sw : UInt16} (gets : List Bytes) (hgets : ∀ raw ∈ gets, IsGetResponse raw)
    {left : Option Bytes} {r : CardRouter γ} (hleft : Left r sw left) :
    HandsOut sw left (answers applets r gets) ∧
      (answers applets r gets).length = gets.length := by
  induction gets generalizing left r with
  | nil => cases left <;> exact ⟨trivial, rfl⟩
  | cons raw gets ih =>
      obtain ⟨apdu, hparse, hins⟩ := hgets raw List.mem_cons_self
      have hrest := fun raw hraw => hgets raw (List.mem_cons_of_mem _ hraw)
      have hrun := run_getResponse applets hparse hins r
      cases left with
      | none =>
          have hnone : (serveGetResponse apdu.le).run r =
              (.ok (.withSw [] swConditionsNotSatisfied), { r with chain := none }) := by
            rw [serveGetResponse, Prog.run_act_bind]
            have hchain : r.chain = none := hleft
            simp only [hchain]
            rfl
          obtain ⟨hout, hlen⟩ := @ih hrest none { r with chain := none } rfl
          rw [answers, hrun, hnone]
          exact ⟨⟨rfl, hout⟩, congrArg Nat.succ hlen⟩
      | some left =>
          obtain ⟨piece, more, next, hserve, hsplit, hdata, hcase⟩ :=
            run_serveGetResponse hleft fun n hn => Apdu.le_pos hparse hn
          rw [answers, hrun, hserve]
          obtain ⟨rfl, hsw, hnext⟩ | ⟨hmore, hsw, hnext⟩ := hcase
          · obtain ⟨hout, hlen⟩ := ih hrest hnext
            exact ⟨⟨[], hsplit, hdata, .inl ⟨rfl, hsw, hout⟩⟩, congrArg Nat.succ hlen⟩
          · obtain ⟨hout, hlen⟩ := ih hrest hnext
            exact ⟨⟨more, hsplit, hdata, .inr ⟨hmore, hsw, hout⟩⟩, congrArg Nat.succ hlen⟩

/-! ## A response in pieces -/

/-- The response of an applet, or the status word of its failure. -/
def replyOf : Except UInt16 ResponseData → ResponseData
  | .ok response => response
  | .error sw => .withSw [] sw

/-- The first answer to a command and those to the GET RESPONSE commands after it hand out a
response. -/
def Chained (response : ResponseData) (first : ResponseData) (rest : List ResponseData) : Prop :=
  ∃ more, response.data = first.data ++ more ∧
    ((more = [] ∧ first.sw = some (response.sw.getD swNoError) ∧
        HandsOut (response.sw.getD swNoError) none rest) ∨
      (more ≠ [] ∧ first.sw = some (swMoreData more.length) ∧
        HandsOut (response.sw.getD swNoError) (some more) rest))

theorem HandsOut.data_nil {sw : UInt16} :
    ∀ {out : List ResponseData}, HandsOut sw none out → out.flatMap (·.data) = []
  | [], _ => rfl
  | _ :: rest, ⟨hpiece, hrest⟩ => by
      subst hpiece
      exact @data_nil _ rest hrest

theorem HandsOut.data_isPrefix {sw : UInt16} {out : List ResponseData} :
    ∀ {left : Bytes}, HandsOut sw (some left) out → out.flatMap (·.data) <+: left := by
  induction out with
  | nil => intro left _; exact List.nil_prefix
  | cons piece rest ih =>
      rintro left ⟨more, rfl, -, ⟨rfl, -, hrest⟩ | ⟨-, -, hrest⟩⟩
      · simp only [List.flatMap_cons, hrest.data_nil, List.prefix_rfl]
      · rw [List.flatMap_cons]
        exact (List.prefix_append_right_inj _).mpr (ih hrest)

theorem Chained.data_isPrefix {response first : ResponseData} {rest : List ResponseData}
    (h : Chained response first rest) :
    (first :: rest).flatMap (·.data) <+: response.data := by
  obtain ⟨more, hdata, hcase⟩ := h
  rw [hdata, List.flatMap_cons]
  obtain ⟨rfl, -, hrest⟩ | ⟨-, -, hrest⟩ := hcase
  · simp only [hrest.data_nil, List.prefix_rfl]
  · exact (List.prefix_append_right_inj _).mpr hrest.data_isPrefix

/-- What the router hands out at once. -/
theorem run_deliver_eq (r : CardRouter γ) (response : ResponseData) (le : Option Nat) :
    ∃ next, (deliver response le).run r =
        (.ok (if response.data.length ≤ le.getD 0 then
            .withSw response.data (response.sw.getD swNoError)
          else .withSw (response.data.take (le.getD 0))
            (swMoreData (response.data.length - le.getD 0))), next) ∧
      next.selected = r.selected ∧ next.card = r.card := by
  unfold deliver
  simp only
  by_cases hempty : response.data = []
  · rw [if_pos hempty, hempty, List.length_nil, if_pos (Nat.zero_le _)]
    exact ⟨r, rfl, rfl, rfl⟩
  · rw [if_neg hempty]
    by_cases hfits : response.data.length ≤ le.getD 0
    · rw [if_pos hfits, if_pos hfits]
      exact ⟨r, rfl, rfl, rfl⟩
    · rw [if_neg hfits, if_neg hfits]
      exact ⟨_, rfl, rfl, rfl⟩

/-- The answer to the command itself. -/
theorem run_deliver {r : CardRouter γ} (response : ResponseData) (le : Option Nat)
    (hchain : r.chain = none) :
    ∃ first more next, (deliver response le).run r = (.ok first, next) ∧
      response.data = first.data ++ more ∧
      ((more = [] ∧ first.sw = some (response.sw.getD swNoError) ∧
          Left next (response.sw.getD swNoError) none) ∨
        (more ≠ [] ∧ first.sw = some (swMoreData more.length) ∧
          Left next (response.sw.getD swNoError) (some more))) := by
  unfold deliver
  simp only
  by_cases hempty : response.data = []
  · rw [if_pos hempty]
    refine ⟨_, [], r, rfl, ?_, .inl ⟨rfl, rfl, hchain⟩⟩
    rw [hempty]
    rfl
  · rw [if_neg hempty]
    by_cases hfits : response.data.length ≤ le.getD 0
    · rw [if_pos hfits]
      exact ⟨_, [], r, rfl, (List.append_nil _).symm, .inl ⟨rfl, rfl, hchain⟩⟩
    · rw [if_neg hfits]
      have hmore : response.data.drop (le.getD 0) ≠ [] := by
        rw [Ne, List.drop_eq_nil_iff]
        exact hfits
      refine ⟨_, response.data.drop (le.getD 0), _, rfl, (List.take_append_drop _ _).symm,
        .inr ⟨hmore, ?_, hmore, _, rfl, rfl, rfl⟩⟩
      rw [List.length_drop]
      rfl

/-- A command other than GET RESPONSE does not see what was left. -/
theorem run_process_chain {raw : Bytes} {apdu : Apdu} (hparse : Apdu.parse raw = .ok apdu)
    (hins : apdu.ins ≠ 0xC0) (r : CardRouter γ) :
    (process applets raw).run r = (process applets raw).run { r with chain := none } := by
  unfold process
  simp only [hparse]
  rw [if_neg hins]
  rfl

/-- A command that is routed is handed to the applet, and its response is delivered. -/
theorem run_process_routed {r : CardRouter γ} {idx : Nat} {applet : CardApplet γ} {raw : Bytes}
    {apdu : Apdu} {result : Except Fault ResponseData} {card : γ}
    {reply : Except UInt16 ResponseData} (hsel : r.selected = some idx)
    (happlet : applets[idx]? = some applet) (hparse : Apdu.parse raw = .ok apdu)
    (hget : apdu.ins ≠ 0xC0) (hselect : apdu.ins ≠ 0xA4)
    (hrun : (applet.process apdu).run r.card = (result, card))
    (hreply : Fault.status? result = .ok reply) :
    (process applets raw).run r =
      (deliver (replyOf reply) apdu.le).run { r with card := card, chain := none } := by
  have hcard : (onCard (applet.process apdu)).run { r with chain := none } =
      (.ok reply, { r with card := card, chain := none }) := by
    show (Fault.status? ((applet.process apdu).run r.card).1, _) = _
    rw [hrun, hreply]
  unfold process
  simp only [hparse]
  rw [if_neg hget, if_neg hselect]
  show (route applets apdu).run { r with chain := none } = _
  unfold route
  rw [Prog.run_read_bind]
  have hfound : (r.selected.bind fun idx => applets[idx]?) = some applet := by
    rw [hsel, Option.bind_some, happlet]
  simp only [hfound]
  rw [Prog.run_bind, hcard]
  cases reply <;> rfl

/-- Response chaining loses nothing: whatever the applet answers, the command and any GET
RESPONSE commands after it hand out its response from the front, each piece with the number of
bytes that are left or the applet's status word, and any other command makes the router forget
the rest. -/
theorem response_chaining :
    (∀ (r : CardRouter γ) (idx : Nat) (applet : CardApplet γ) (raw : Bytes) (apdu : Apdu)
        (result : Except Fault ResponseData) (card : γ) (reply : Except UInt16 ResponseData)
        (gets : List Bytes),
        r.selected = some idx → applets[idx]? = some applet → Apdu.parse raw = .ok apdu →
        apdu.ins ≠ 0xC0 → apdu.ins ≠ 0xA4 →
        (applet.process apdu).run r.card = (result, card) → Fault.status? result = .ok reply →
        (∀ get ∈ gets, IsGetResponse get) →
        ∃ first rest, answers applets r (raw :: gets) = first :: rest ∧
          rest.length = gets.length ∧ Chained (replyOf reply) first rest ∧
          (first :: rest).flatMap (·.data) <+: (replyOf reply).data) ∧
      (∀ n, (swMoreData n).toNat = 0x6100 + if n ≤ 255 then n else 0) ∧
      (∀ (r : CardRouter γ) (raw : Bytes) (apdu : Apdu), Apdu.parse raw = .ok apdu →
        apdu.ins ≠ 0xC0 →
        (process applets raw).run r = (process applets raw).run { r with chain := none }) := by
  refine ⟨?_, toNat_swMoreData, fun r raw apdu hparse hins =>
    run_process_chain applets hparse hins r⟩
  intro r idx applet raw apdu result card reply gets hsel happlet hparse hget hselect hrun hreply
    hgets
  obtain ⟨first, more, next, hdeliver, hdata, hcase⟩ :=
    run_deliver (r := { r with card := card, chain := none }) (replyOf reply) apdu.le rfl
  have hanswers : answers applets r (raw :: gets) = first :: answers applets next gets := by
    rw [answers, run_process_routed applets hsel happlet hparse hget hselect hrun hreply, hdeliver]
  have hchained : Chained (replyOf reply) first (answers applets next gets) ∧
      (answers applets next gets).length = gets.length := by
    obtain ⟨rfl, hsw, hnext⟩ | ⟨hmore, hsw, hnext⟩ := hcase
    · obtain ⟨hout, hlen⟩ := handsOut_gets applets gets hgets hnext
      exact ⟨⟨[], hdata, .inl ⟨rfl, hsw, hout⟩⟩, hlen⟩
    · obtain ⟨hout, hlen⟩ := handsOut_gets applets gets hgets hnext
      exact ⟨⟨more, hdata, .inr ⟨hmore, hsw, hout⟩⟩, hlen⟩
  exact ⟨first, _, hanswers, hchained.2, hchained.1, hchained.1.data_isPrefix⟩

end CardRouter

/-- An applet that answers every command with five bytes. -/
def fiveBytes : CardApplet Unit where
  aid := [1]
  select := pure ()
  selectResponse := pure []
  process := fun _ => pure (.withSw [1, 2, 3, 4, 5] 0x9000)

/-- Five bytes, asked for two by two. -/
theorem response_chaining_fiveBytes :
    ∃ first rest, CardRouter.answers [fiveBytes] ⟨(), some 0, none⟩
        [[0, 1, 0, 0, 2], [0, 0xC0, 0, 0, 2], [0, 0xC0, 0, 0, 2]] = first :: rest ∧
      rest.length = 2 ∧ CardRouter.Chained (.withSw [1, 2, 3, 4, 5] 0x9000) first rest ∧
      (first :: rest).flatMap (·.data) <+: [1, 2, 3, 4, 5] :=
  (CardRouter.response_chaining [fiveBytes]).1 ⟨(), some 0, none⟩ 0 fiveBytes [0, 1, 0, 0, 2]
    ⟨0, 1, 0, 0, [], some 2⟩ (.ok (.withSw [1, 2, 3, 4, 5] 0x9000)) ()
    (.ok (.withSw [1, 2, 3, 4, 5] 0x9000)) _ rfl rfl rfl (by decide) (by decide) rfl rfl (by
      intro get hget
      simp only [List.mem_cons, List.not_mem_nil, or_false, or_self] at hget
      subst hget
      exact ⟨⟨0, 0xC0, 0, 0, [], some 2⟩, rfl, rfl⟩)

end OpenKey
