import StakedaoPlugin.Arguments

/-! The slots that arguments are copied into, and what is left of them while the
call is presented. -/
namespace StakedaoPlugin
open CursorParser History

/-- The members of the context that receive arguments. -/
inductive Slot where
  | amount
  | minAmount
  | pid
  | address
deriving DecidableEq

def Slot.bytes (slot : Slot) (c : StakedaoParameters) : List UInt8 :=
  match slot with
  | amount => c.amount.toList
  | minAmount => c.minAmount.toList
  | pid => c.pid.toList
  | address => c.address.toList

/-- The bytes of a word that the slot receives. -/
def Slot.copied (sdk : Sdk) (slot : Slot) (w : Word) : List UInt8 :=
  match slot with
  | amount | minAmount => w.toList
  | pid => (lowHalf w).toList
  | address => (sdk.copyAddress w).toList

/-- The slot of a case that copies its word. -/
def Store.slot : Store → Option Slot
  | amount => some .amount
  | minAmount => some .minAmount
  | pid | nftId => some .pid
  | address => some .address
  | skip => none

/-- The two forms of `add_liquidity` with 3 coins. -/
def ThreeCoins (s : StakedaoSelector) : Prop := s = .curveAddL3 ∨ s = .curveAddL3Under

instance (s : StakedaoSelector) : Decidable (ThreeCoins s) := inferInstanceAs (Decidable (_ ∨ _))

/-- No slot receives two of these arguments. -/
def Apart (acts : List Store) : Prop := acts.Pairwise fun a b => a.slot = b.slot → a.slot = none

instance (acts : List Store) : Decidable (Apart acts) :=
  inferInstanceAs (Decidable (acts.Pairwise _))

/-- As many words as the signature has; the proof of a claim brings any number of words. -/
def ExactArity (s : StakedaoSelector) (ws : List Word) : Prop :=
  headWords s ≤ ws.length ∧ (s ≠ .rewardsClaim → ws.length = headWords s)

/-- Every argument that was copied is still in its slot. -/
def ArgumentsKept (sdk : Sdk) (s : StakedaoSelector) (ws : List Word) (c : StakedaoParameters) :
    Prop :=
  ∀ (i : Nat) (a : Store) (slot : Slot) (w : Word), (stores s)[i]? = some a →
    a.slot = some slot → ws[i]? = some w → slot.bytes c = slot.copied sdk w

section Slots
variable (sdk : Sdk) {s : StakedaoSelector} {slot : Slot} {ws : List Word}

theorem exactArity_of_abi (h : IsAbiEncoding s ws) : ExactArity s ws := by
  by_cases hr : s = .rewardsClaim
  · subst hr
    obtain ⟨merkleIndex, index, amount, merkleProof, rfl⟩ := (if_pos rfl).mp h
    refine ⟨?_, fun hn => absurd rfl hn⟩
    simp [headWords]
  · have hlen : ws.length = headWords s := by simpa [IsAbiEncoding, hr] using h
    exact ⟨by omega, fun _ => hlen⟩

/-- A case writes its own slot and no other. -/
theorem bytes_apply (a : Store) (w : Word) (c : StakedaoParameters) :
    slot.bytes (a.apply sdk w c) =
      if a.slot == some slot then slot.copied sdk w else slot.bytes c := by
  cases a <;> cases slot <;>
    simp [Store.apply, Store.slot, Slot.bytes, Slot.copied, copyAmount_word, copyPid_word,
      copyNftId_word]

theorem bytes_delivered (ws : List Word) :
    slot.bytes (delivered sdk s ws) =
      ((lastHit (fun a : Store => a.slot == some slot) (stores s) ws).map (slot.copied sdk)).getD
        (slot.bytes (initialContext s)) :=
  read_deliver (Store.apply sdk) slot.bytes (slot.copied sdk) (fun a : Store => a.slot == some slot)
    (bytes_apply sdk) (stores s) ws (initialContext s)

/-- Only the first two coins of three are given one slot. -/
theorem apart_iff (s : StakedaoSelector) : Apart (stores s) ↔ ¬ ThreeCoins s := by
  cases s <;> decide

theorem apart_tail (s : StakedaoSelector) : Apart (stores s).tail := by
  cases s <;> decide

theorem Apart.slot_ne {acts : List Store} (h : Apart acts) {i j : Nat} {a b : Store} (hij : i < j)
    (ha : acts[i]? = some a) (hb : acts[j]? = some b) (hslot : a.slot = some slot) :
    b.slot ≠ some slot := by
  obtain ⟨hi, rfl⟩ := List.getElem?_eq_some_iff.mp ha
  obtain ⟨hj, rfl⟩ := List.getElem?_eq_some_iff.mp hb
  intro hslot'
  have hnone := List.pairwise_iff_getElem.mp h i j hi hj hij (hslot.trans hslot'.symm)
  rw [hslot] at hnone
  cases hnone

/-- Nothing is copied over an argument, but over the first coin of three. -/
theorem slot_not_refilled {i j : Nat} {a b : Store} (hij : i < j)
    (ha : (stores s)[i]? = some a) (hb : (stores s)[j]? = some b) (hslot : a.slot = some slot)
    (hfirst : ThreeCoins s → i ≠ 0) : b.slot ≠ some slot := by
  by_cases h3 : ThreeCoins s
  · obtain ⟨i, rfl⟩ := Nat.exists_eq_succ_of_ne_zero (hfirst h3)
    have hj : j ≠ 0 := by omega
    obtain ⟨j, rfl⟩ := Nat.exists_eq_succ_of_ne_zero hj
    refine (apart_tail s).slot_ne (Nat.lt_of_succ_lt_succ hij) ?_ ?_ hslot
    · rw [List.getElem?_tail, ← ha]
    · rw [List.getElem?_tail, ← hb]
  · exact ((apart_iff s).mpr h3).slot_ne hij ha hb hslot

/-- The last case of the operation does not copy, or is given one word only. -/
theorem length_of_arity (h : ExactArity s ws) {i : Nat} {a : Store}
    (ha : (stores s)[i]? = some a) (hslot : a.slot = some slot) :
    ws.length ≤ (stores s).length ∨ i + 1 < (stores s).length := by
  by_cases hr : s = .rewardsClaim
  · subst hr
    have hi : i < 4 := (List.getElem?_eq_some_iff.mp ha).1
    have hne : i ≠ 3 := by
      intro he
      subst he
      obtain rfl : Store.skip = a := Option.some.inj ha
      cases hslot
    have hlen : (stores .rewardsClaim).length = 4 := rfl
    omega
  · rw [stores_length, h.2 hr]
    exact Or.inl (Nat.le_refl _)

theorem bytes_delivered_of_arity (h : ExactArity s ws) {i : Nat} {a : Store} {w : Word}
    (ha : (stores s)[i]? = some a) (hslot : a.slot = some slot) (hw : ws[i]? = some w)
    (hfirst : ThreeCoins s → i ≠ 0) : slot.bytes (delivered sdk s ws) = slot.copied sdk w := by
  have hlast := lastHit_of_unique (fun a : Store => a.slot == some slot) (stores s) ws ha hw
    (by simp [hslot])
    (fun j b hij hb => by simpa using slot_not_refilled hij ha hb hslot hfirst)
    (length_of_arity h ha hslot)
  rw [bytes_delivered, hlast]
  rfl

theorem argument_of_arity (h : ExactArity s ws) {i : Nat} {a : Store}
    (ha : (stores s)[i]? = some a) : ∃ w, ws[i]? = some w := by
  have hi := (List.getElem?_eq_some_iff.mp ha).1
  rw [stores_length] at hi
  exact ⟨_, List.getElem?_eq_getElem (Nat.lt_of_lt_of_le hi h.1)⟩

theorem exists_parsed_of_arity {init : EthPluginInitContract} {c₀ : StakedaoParameters}
    (hok : (handleInitContract sdk init c₀).1.result = .ok)
    (hchosen : chosen init.selector init.txContent.destination = s) (h : ExactArity s ws) :
    ∃ c, parsed sdk init c₀ ws = some c := by
  subst hchosen
  have hsup := (handleInitContract_ok_iff sdk init c₀).mp hok
  by_cases h0 : headWords (chosen init.selector init.txContent.destination) = 0
  · have hr : chosen init.selector init.txContent.destination ≠ .rewardsClaim := by
      intro he
      rw [he] at h0
      cases h0
    have hnil : ws = [] := List.eq_nil_of_length_eq_zero ((h.2 hr).trans h0)
    refine ⟨initialContext (chosen init.selector init.txContent.destination), ?_⟩
    rw [parsed_eq sdk init c₀ ws hsup, hnil]
    rfl
  · exact exists_parsed sdk c₀ hsup h0 ws

section Parsed
variable {init : EthPluginInitContract} {c₀ c : StakedaoParameters}

theorem bytes_parsed (h : parsed sdk init c₀ ws = some c)
    (hchosen : chosen init.selector init.txContent.destination = s) :
    slot.bytes c = slot.bytes (delivered sdk s ws) := by
  rw [slots_parsed sdk h, hchosen]
  cases slot <;> rfl

/-- After the calldata, an argument can be missing only where the second coin
of three was copied over the first. -/
theorem kept_parsed (h : parsed sdk init c₀ ws = some c)
    (hchosen : chosen init.selector init.txContent.destination = s) (harity : ExactArity s ws) :
    ArgumentsKept sdk s ws c ↔ (ThreeCoins s → ws[0]? = ws[1]?) := by
  have hcoins (h3 : ThreeCoins s) :
      (stores s)[0]? = some .amount ∧ (stores s)[1]? = some .amount := by
    rcases h3 with rfl | rfl <;> exact ⟨rfl, rfl⟩
  constructor
  · intro hkept h3
    obtain ⟨h0, h1⟩ := hcoins h3
    obtain ⟨v, hv⟩ := argument_of_arity harity h0
    obtain ⟨w, hw⟩ := argument_of_arity harity h1
    have hfirst : c.amount.toList = v.toList := hkept 0 .amount .amount v h0 rfl hv
    have hsecond : c.amount.toList = w.toList := hkept 1 .amount .amount w h1 rfl hw
    rw [hv, hw, Vector.toList_inj.mp (hfirst.symm.trans hsecond)]
  · intro heq i a slot w ha hslot hw
    rw [bytes_parsed sdk h hchosen]
    by_cases hlost : ThreeCoins s ∧ i = 0
    · -- the second coin is in the slot, and it is equal to the first
      obtain ⟨h3, rfl⟩ := hlost
      obtain ⟨h0, h1⟩ := hcoins h3
      obtain rfl : Store.amount = a := Option.some.inj (h0.symm.trans ha)
      exact bytes_delivered_of_arity sdk harity h1 hslot ((heq h3).symm.trans hw)
        (fun _ => Nat.one_ne_zero)
    · exact bytes_delivered_of_arity sdk harity ha hslot hw (fun h3 hi => hlost ⟨h3, hi⟩)

end Parsed
end Slots

section Run
variable (sdk : Sdk) {s : StakedaoSelector} {slot : Slot} {ws : List Word}
  {c : StakedaoParameters}

/-- A query about a transaction to this address. -/
def Query.To (a : Address) : Query → Prop
  | ui msg => msg.txContent.destination = a
  | _ => True

theorem bytes_run (qs : List Query) (hslot : slot ≠ .address) :
    slot.bytes (run (present sdk) qs c) = slot.bytes c := by
  have hsame := sameCall_run c sdk qs
  cases slot with
  | amount => exact congrArg Vector.toList hsame.amount
  | minAmount => exact congrArg Vector.toList hsame.minAmount
  | pid => exact congrArg Vector.toList hsame.pid
  | address => exact absurd rfl hslot

/-- Each lookup writes the destination over the address. -/
theorem address_refresh (c : StakedaoParameters) (destination : Address) :
    (refresh c destination).address = destination := by
  rw [refresh_eq]

theorem address_present (q : Query) (c : StakedaoParameters) :
    (present sdk q c).address =
      match q with
      | .ui msg => msg.txContent.destination
      | _ => c.address := by
  rw [present_eq]
  cases q with
  | ui msg => exact address_refresh c msg.txContent.destination
  | finalize msg => rfl
  | id msg => rfl

theorem address_run (a : Address) (qs : List Query) (hqs : ∀ q ∈ qs, q.To a)
    (hc : c.address = a) : (run (present sdk) qs c).address = a := by
  refine run_present_invariant c sdk (fun d => d.address = a) qs hc ?_
  intro ui hui d _
  rw [address_refresh]
  exact hqs (.ui ui) hui

/-- Only the call for the rewards of a user stores an address. -/
theorem address_slot {i : Nat} {a : Store} (ha : (stores s)[i]? = some a)
    (hslot : a.slot = some .address) : s = .angleGetReward ∧ i = 0 := by
  have hs : ∀ b ∈ stores s, b.slot = some .address → s = .angleGetReward := by
    cases s <;> decide
  have he := hs a (List.mem_of_getElem? ha) hslot
  subst he
  have hi : i < 1 := (List.getElem?_eq_some_iff.mp ha).1
  exact ⟨rfl, by omega⟩

/-- While a call is presented its arguments stay in their slots, exactly if no
screen is about another address than the user that is stored. -/
theorem kept_run_iff (hkept : ArgumentsKept sdk s ws c) (qs : List Query) :
    (∀ before, before <+: qs → ArgumentsKept sdk s ws (run (present sdk) before c)) ↔
      (s = .angleGetReward → ∀ w, ws[0]? = some w → ∀ q ∈ qs, q.To (sdk.copyAddress w)) := by
  constructor
  · intro h hs w hw q hq
    subst hs
    obtain ⟨before, after, rfl⟩ := List.append_of_mem hq
    have hpre : before ++ [q] <+: before ++ q :: after := ⟨after, by simp⟩
    have hbytes : (run (present sdk) (before ++ [q]) c).address.toList =
        (sdk.copyAddress w).toList := h _ hpre 0 .address .address w rfl rfl hw
    rw [run_concat, address_present, Vector.toList_inj] at hbytes
    cases q with
    | ui msg => exact hbytes
    | finalize msg => trivial
    | id msg => trivial
  · intro hto before hpre i a slot w ha hslot hw
    by_cases haddr : slot = .address
    · subst haddr
      obtain ⟨hs, rfl⟩ := address_slot ha hslot
      have hbytes : c.address.toList = (sdk.copyAddress w).toList :=
        hkept 0 a .address w ha hslot hw
      have hc := Vector.toList_inj.mp hbytes
      exact congrArg Vector.toList
        (address_run sdk _ before (fun q hq => hto hs w hw q (hpre.subset hq)) hc)
    · rw [bytes_run sdk before haddr]
      exact hkept i a slot w ha hslot hw

/-- Two arguments share a slot exactly in `add_liquidity` with 3 coins. From the
calldata through every finalize call and screen all arguments stay in their
slots exactly if, there, the first two amounts are equal, and if each screen
of a claim for a user is about that user's address. -/
theorem arguments_kept_iff {init : EthPluginInitContract} {c₀ : StakedaoParameters}
    (hok : (handleInitContract sdk init c₀).1.result = .ok)
    (hchosen : chosen init.selector init.txContent.destination = s) (harity : ExactArity s ws)
    (qs : List Query) :
    (Apart (stores s) ↔ ¬ ThreeCoins s) ∧
    ∃ c, parsed sdk init c₀ ws = some c ∧
      ((∀ before, before <+: qs → ArgumentsKept sdk s ws (run (present sdk) before c)) ↔
        (ThreeCoins s → ws[0]? = ws[1]?) ∧
          (s = .angleGetReward → ∀ w, ws[0]? = some w → ∀ q ∈ qs, q.To (sdk.copyAddress w))) := by
  obtain ⟨c, hc⟩ := exists_parsed_of_arity sdk hok hchosen harity
  refine ⟨apart_iff s, c, hc, ?_⟩
  have hparsed := kept_parsed sdk hc hchosen harity
  constructor
  · intro h
    have hkept : ArgumentsKept sdk s ws c := h [] List.nil_prefix
    exact ⟨hparsed.mp hkept, (kept_run_iff sdk hkept qs).mp h⟩
  · intro h
    obtain ⟨hcoins, hto⟩ := h
    exact (kept_run_iff sdk (hparsed.mpr hcoins) qs).mpr hto

end Run

/-- With 2 coins every argument has a slot of its own. -/
theorem arguments_kept_two_coins :
    ∃ c, parsed referenceSdk (initCall stakedaoCurveAddLiquidity2Selector threeCrvPool.address)
        .zero [wordOf 1, wordOf 2, wordOf 3] = some c ∧
      ArgumentsKept referenceSdk .curveAddL2 [wordOf 1, wordOf 2, wordOf 3]
        (run (present referenceSdk) [.finalize ⟨0, .generic, .error⟩,
          .ui (uiQuery (callTo threeCrvPool.address) 2 79)] c) := by
  have hs : chosen stakedaoCurveAddLiquidity2Selector threeCrvPool.address = .curveAddL2 := rfl
  have habi : IsAbiEncoding .curveAddL2 [wordOf 1, wordOf 2, wordOf 3] := rfl
  obtain ⟨-, c, hc, hiff⟩ := arguments_kept_iff referenceSdk
    (initCall_ok stakedaoCurveAddLiquidity2Selector threeCrvPool.address .zero) hs
    (exactArity_of_abi habi)
    [.finalize ⟨0, .generic, .error⟩, .ui (uiQuery (callTo threeCrvPool.address) 2 79)]
  refine ⟨c, hc, hiff.mpr ⟨?_, ?_⟩ _ (List.prefix_refl _)⟩
  · intro h3
    exact absurd h3 (by decide)
  · intro he
    cases he

def rewardsOfUser : StakedaoParameters := delivered referenceSdk .angleGetReward [wordOf 1]

/-- The first of 3 coins is lost before the call is finalized, and the user of a
reward with the first screen. -/
theorem arguments_lost :
    (∃ c, parsed referenceSdk (initCall stakedaoCurveAddLiquidity3Selector threeCrvPool.address)
        .zero [wordOf 1, wordOf 2, wordOf 3, wordOf 4] = some c ∧ c.amount = wordOf 2 ∧
      ¬ ArgumentsKept referenceSdk .curveAddL3 [wordOf 1, wordOf 2, wordOf 3, wordOf 4] c) ∧
    parsed referenceSdk (initCall stakedaoAngleGetRewardSelector palace.address) .zero
        [wordOf 1] = some rewardsOfUser ∧
      rewardsOfUser.address = referenceSdk.copyAddress (wordOf 1) ∧
      ¬ ArgumentsKept referenceSdk .angleGetReward [wordOf 1]
        (run (present referenceSdk) [.ui (uiQuery (callTo palace.address) 0 79)] rewardsOfUser) := by
  refine ⟨?_, parsed_initCall _ _ _ _, by decide +kernel, ?_⟩
  · have hs : chosen stakedaoCurveAddLiquidity3Selector threeCrvPool.address = .curveAddL3 := rfl
    have harity : ExactArity .curveAddL3 [wordOf 1, wordOf 2, wordOf 3, wordOf 4] :=
      ⟨Nat.le_refl 4, fun _ => rfl⟩
    have hok := initCall_ok stakedaoCurveAddLiquidity3Selector threeCrvPool.address .zero
    obtain ⟨c, hc⟩ := exists_parsed_of_arity referenceSdk hok hs harity
    refine ⟨c, hc, ?_, ?_⟩
    · have hstore : (stores .curveAddL3)[1]? = some .amount := rfl
      have hslot : Store.amount.slot = some .amount := rfl
      have hbytes := bytes_delivered_of_arity referenceSdk harity hstore hslot rfl
        (fun _ => Nat.one_ne_zero)
      rw [← bytes_parsed referenceSdk hc hs] at hbytes
      exact Vector.toList_inj.mp hbytes
    · intro hkept
      have heq := (kept_parsed referenceSdk hc hs harity).mp hkept (Or.inl rfl)
      have hne : wordOf 1 ≠ wordOf 2 := by decide +kernel
      exact hne (Option.some.inj heq)
  · intro hkept
    have hbytes := hkept 0 .address .address (wordOf 1) rfl rfl rfl
    have haddr := address_present referenceSdk (.ui (uiQuery (callTo palace.address) 0 79))
      rewardsOfUser
    have huser : palace.address ≠ referenceSdk.copyAddress (wordOf 1) := by decide +kernel
    exact huser (haddr.symm.trans (Vector.toList_inj.mp hbytes))

end StakedaoPlugin
