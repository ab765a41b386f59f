import OpenKey.Ctap2.Runs

/-!
# The signature counter

The counter is one number for all credentials, kept as decimal text. Every assertion takes the
next value and saves it before it signs, so along a run without Reset the counters in the answers
go up, through power cycles and failed commands, until the last `u32` has been used.
-/

namespace OpenKey

set_option autoImplicit false

/-! ## The field -/

/-- The signature counter in authenticator data: bytes 33 to 36, big-endian. -/
def signCountField (authData : Bytes) : Nat := Bytes.beNat ((authData.drop 33).take 4)

theorem signCountField_header {rpIdHash : Bytes} {n : Nat} (flags : UInt8)
    (hlen : rpIdHash.length = 32) (hn : n < 2 ^ 32) :
    signCountField (authDataHeader rpIdHash flags n) = n := by
  have hdrop : (authDataHeader rpIdHash flags n).drop 33 = Bytes.beBytes 4 n := by
    unfold authDataHeader
    rw [List.drop_append, List.drop_eq_nil_of_le (by omega), hlen]
    rfl
  unfold signCountField
  rw [hdrop, List.take_of_length_le (by simp), Bytes.beNat_beBytes_of_lt hn]

/-- The counter in the answer of a successful assertion. -/
def Exchange.signCount {β : Type} (x : Exchange β) : Option Nat :=
  x.assertion.map fun response => signCountField response.authData

/-! ## Moves -/

section Moves

variable {β : Type} [StorageBackend β] [LawfulBackend β]

theorem Move.signCounter_le {K : Set Kind} {c c' : Core β} (h : Move K c c') :
    c.storage.signCounter ≤ c'.storage.signCounter := by
  obtain heq | ⟨heq, -⟩ | ⟨v, mark, ha, hs⟩ := h.value_eq systemKey_counter
  · exact Nat.le_of_eq (readDecimal_congr heq _ _).symm
  · exact absurd heq (by decide)
  · generalize hkey : signCounterStorageKey = key at ha hs
    cases ha with
    | counted hlt =>
        have hread := readDecimal_saved hs hlt 0
        rw [StorageEngine.signCounter, StorageEngine.signCounter] at *
        omega
    | initialPin | newPin => exact absurd hkey (by decide)
    | takeRetry => exact absurd hkey (by decide)
    | alwaysUv => exact absurd hkey (by decide)
    | plain key v hmem =>
        subst hkey
        exact absurd hmem (by decide)

end Moves

namespace Auth

variable {β : Type} [StorageBackend β] [LawfulBackend β] (build : Build)

/-! ## One input -/

/-- The counter of the second state is not below that of the first, and what makes a power cycle
keep it is kept. -/
structure Counting (a b : Auth β) : Prop where
  le : a.storage.signCounter ≤ b.storage.signCounter
  synced : a.storage.Synced → b.storage.Synced
  backend : b.storage.backend.isSome = a.storage.backend.isSome

theorem counting_of_moves {K : Set Kind} {a b : Auth β} (h : (Moves K).rel a b) : Counting a b where
  le := moves_invariant (P := fun c => a.storage.signCounter ≤ c.storage.signCounter)
    (fun _ _ hmove hle => hle.trans hmove.signCounter_le) h le_rfl
  synced hs := moves_invariant (P := fun c => c.storage.Synced) (fun _ _ hmove => hmove.synced) h hs
  backend := moves_invariant
    (P := fun c => c.storage.backend.isSome = a.storage.backend.isSome)
    (fun _ _ hmove heq => hmove.backend.trans heq) h rfl

theorem counting_powerCycle {a : Auth β} (hs : a.storage.Synced)
    (hb : a.storage.backend.isSome = true) : Counting a (a.powerCycle build) where
  le := by
    have hvalue := value_reopen build hb hs systemKey_counter
    exact Nat.le_of_eq (readDecimal_congr hvalue _ _).symm
  synced _ := synced_reopen build a.storage
  backend := congrArg Option.isSome (backend_reopen build a.storage)

/-- An assertion takes the next value of the counter and leaves it saved. -/
theorem signCounted_counts {credential : Credential} {rpIdHash clientDataHash : Bytes}
    {flags : UInt8} {a b : Auth β} {r : Assertion} (hlen : rpIdHash.length = 32)
    (h : (signCounted build credential rpIdHash flags clientDataHash).run a = (.ok r, b)) :
    a.storage.signCounter + 1 < 2 ^ 32 ∧
      signCountField r.authData = a.storage.signCounter + 1 ∧
      b.storage.signCounter = a.storage.signCounter + 1 := by
  obtain ⟨hlt, hdata, e, e', hsaved, hupdate, hcore⟩ := signCounted_ok build h
  refine ⟨hlt, by rw [hdata, signCountField_header flags hlen hlt], ?_⟩
  have hsettled := (StorageEngine.settled_updateSignCount build.codec _ _).of_run hupdate
  have hstorage : b.storage = e' := congrArg Core.storage hcore
  rw [hstorage]
  exact (readDecimal_congr (hsettled.1 _ systemKey_counter) _ _).trans
    (readDecimal_saved hsaved hlt 0)

/-- The counter in an answer is above the one before the command, and saved after it. -/
theorem signCount_of_exchange {a : Auth β} {cmd : UInt8} {data : Bytes} {r : GetAssertionResponse}
    (h : (a.exchange build cmd data).assertion = some r) :
    a.storage.signCounter + 1 < 2 ^ 32 ∧
      signCountField r.authData = a.storage.signCounter + 1 ∧
      (a.step build (.command cmd data)).storage.signCounter = a.storage.signCounter + 1 := by
  obtain ⟨-, request, verified, credential, -, hasserted⟩ | ⟨-, state, credential, hnext⟩ :=
    assertion_cases build h
  · obtain ⟨a₁, a₂, assertion, hcore, hsigned, hdata, hb⟩ := hasserted.signed
    have hcounts := signCounted_counts build (CryptoEngine.length_sha256 _ _) hsigned
    have hstorage₁ : a₁.storage = a.storage := congrArg Core.storage hcore
    have hstorage : (a.step build (.command cmd data)).storage = a₂.storage := by
      obtain ⟨-, index, hb⟩ | ⟨-, hb⟩ := hb
      · exact congrArg Core.storage hb
      · exact congrArg Core.storage hb
    rw [hdata, hstorage, ← hstorage₁]
    exact hcounts
  · obtain ⟨a₁, assertion, hcore, hsigned, hdata⟩ := hnext.signed
    have hstorage₁ : a₁.storage = a.storage := congrArg Core.storage hcore
    rw [hdata, ← hstorage₁]
    exact signCounted_counts build (CryptoEngine.length_sha256 _ _) hsigned

/-! ## Runs -/

/-- One input of a run without Reset; a power cycle needs a backend to keep the counter. -/
theorem counting_step {a : Auth β} {input : Input} (hreset : input.isReset = false)
    (hs : a.storage.Synced) (hb : a.storage.backend.isSome = true ∨ input ≠ .powerCycle) :
    Counting a (a.step build input) := by
  cases input with
  | command cmd data =>
    exact counting_of_moves (moves_step build data (of_decide_eq_false hreset) a)
  | powerCycle => exact counting_powerCycle build hs (hb.resolve_right (by simp))

theorem signCounts_increase {inputs : List Input} {a : Auth β}
    (hreset : ∀ input ∈ inputs, input.isReset = false) (hs : a.storage.Synced)
    (hb : a.storage.backend.isSome = true ∨ .powerCycle ∉ inputs) :
    (∀ n ∈ (a.trace build inputs).filterMap Exchange.signCount, a.storage.signCounter < n) ∧
      ((a.trace build inputs).filterMap Exchange.signCount).Pairwise (· < ·) := by
  induction inputs generalizing a with
  | nil => exact ⟨by simp [trace], .nil⟩
  | cons input inputs ih =>
      have hcount : Counting a (a.step build input) := by
        refine counting_step build (hreset _ List.mem_cons_self) hs
          (hb.imp_right fun hmem heq => ?_)
        exact hmem (heq ▸ List.mem_cons_self)
      obtain ⟨hrest, hpair⟩ := ih (fun x hx => hreset x (List.mem_cons_of_mem _ hx))
        (hcount.synced hs)
        (hb.imp (hcount.backend.trans ·) fun hmem hx => hmem (List.mem_cons_of_mem _ hx))
      have hlater : ∀ n ∈ ((a.step build input).trace build inputs).filterMap Exchange.signCount,
          a.storage.signCounter < n := fun n hn => hcount.le.trans_lt (hrest n hn)
      cases input with
      | powerCycle => exact ⟨hlater, hpair⟩
      | command cmd data =>
          rw [trace, List.filterMap_cons]
          cases hx : (a.exchange build cmd data).assertion with
          | none =>
              simp only [Exchange.signCount, hx, Option.map_none]
              exact ⟨hlater, hpair⟩
          | some r =>
              obtain ⟨-, hfield, hafter⟩ := signCount_of_exchange build hx
              simp only [Exchange.signCount, hx, Option.map_some]
              rw [hafter, ← hfield] at hrest
              refine ⟨fun n hn => ?_, .cons hrest hpair⟩
              obtain rfl | hn := List.mem_cons.mp hn
              · rw [hfield]
                exact Nat.lt_succ_self _
              · exact hlater n hn

/-- Along every run without Reset the counters of successive assertions go up, and once the last
value has been used there are no more assertions. -/
theorem sign_counter_monotone (a : Auth β) (inputs : List Input) (hopened : a.Opened build)
    (hreset : ∀ input ∈ inputs, input.isReset = false)
    (hkeep : a.storage.backend.isSome = true ∨ .powerCycle ∉ inputs) :
    ((a.trace build inputs).filterMap Exchange.signCount).Pairwise (· < ·) ∧
      ∀ x ∈ a.trace build inputs,
        (x.command = .getAssertion ∨ x.command = .getNextAssertion) →
        x.before.storage.signCounter = 2 ^ 32 - 1 → ∃ error, x.result = .error error := by
  have hs : a.storage.Synced := by
    rw [← hopened]
    exact synced_reopen build a.storage
  refine ⟨(signCounts_increase build hreset hs hkeep).2, fun x hx hcmd hmax => ?_⟩
  obtain ⟨past, cmd, data, rfl⟩ := mem_trace build hx
  obtain ⟨r, hr⟩ | herror := assertion_or_error build (a.run build past) data hcmd
  · have hlt := (signCount_of_exchange build hr).1
    rw [show (a.run build past).storage.signCounter = 2 ^ 32 - 1 from hmax] at hlt
    exact absurd hlt (by decide)
  · exact herror

set_option maxRecDepth 100000 in
/-- Two assertions of the sample device count 1 and 2. -/
theorem sign_counter_monotone_sample :
    ((memoryDevice.trace sampleBuild
        (sampleSetup 1 ++ [getAssertionCommand [], getNextAssertionCommand])).filterMap
          Exchange.signCount) = [1, 2] ∧
      ((memoryDevice.trace sampleBuild
        (sampleSetup 1 ++ [getAssertionCommand [], getNextAssertionCommand])).filterMap
          Exchange.signCount).Pairwise (· < ·) :=
  ⟨by decide +kernel, (sign_counter_monotone sampleBuild memoryDevice
    (sampleSetup 1 ++ [getAssertionCommand [], getNextAssertionCommand]) rfl (by decide)
    (.inr (by decide +kernel))).1⟩

end Auth

end OpenKey
