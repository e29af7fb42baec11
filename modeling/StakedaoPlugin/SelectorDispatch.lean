import StakedaoPlugin.DisplayedAmount

/-! Which operation the init call chooses for a selector and a contract, and
what follows where it is not the operation that is called. -/
namespace StakedaoPlugin
open CMemory DecimalText History

section Search
variable (selector : Selector) (destination : Address)

theorem chosenIndex_of_not_mem (h : selector ∉ stakedaoSelectors) :
    chosenIndex selector destination = 0 := by
  have hi : stakedaoSelectors.findIdx (· == selector) = stakedaoSelectors.length := by
    refine List.findIdx_eq_length.mpr ?_
    intro t ht
    have hne : t ≠ selector := by
      rintro rfl
      exact h ht
    simpa using hne
  simp [chosenIndex, hi]

theorem getElem?_findIdx (h : selector ∈ stakedaoSelectors) :
    stakedaoSelectors[stakedaoSelectors.findIdx (· == selector)]? = some selector := by
  have hi : stakedaoSelectors.findIdx (· == selector) < stakedaoSelectors.length :=
    List.findIdx_lt_length_of_exists ⟨selector, h, by simp⟩
  have he := List.findIdx_getElem (w := hi)
  rw [List.getElem?_eq_getElem hi]
  simpa using he

theorem getElem?_chosenIndex (h : selector ∈ stakedaoSelectors) :
    stakedaoSelectors[chosenIndex selector destination]? = some selector := by
  have hf := getElem?_findIdx selector h
  have hlt := (List.getElem?_eq_some_iff.mp hf).1
  simp only [chosenIndex, if_pos hlt]
  split_ifs with hn
  · -- entry 20 holds the same bytes as entry 17
    rw [hn.1] at hf
    exact hf
  · exact hf

theorem chosenIndex_withdraw : chosenIndex stakedaoVaultWithdrawSelector destination = 1 := rfl

/-- The second and the third entry with the selector of `withdraw` are never found. -/
theorem chosenIndex_ne_shadowed (i : Nat) (hi : 1 < i)
    (he : stakedaoSelectors[i]? = some stakedaoVaultWithdrawSelector) :
    chosenIndex selector destination ≠ i := by
  intro h
  by_cases hm : selector ∈ stakedaoSelectors
  · have hg := getElem?_chosenIndex selector destination hm
    rw [h, he, Option.some.injEq] at hg
    rw [← hg, chosenIndex_withdraw] at h
    omega
  · rw [chosenIndex_of_not_mem selector destination hm] at h
    omega

end Search

section Init
variable (sdk : Sdk) (msg : EthPluginInitContract) (context : StakedaoParameters)

/-- Some run for this init call ends with a screen of the plugin. -/
def Presented : Prop :=
  ∃ ws c fin id ui m c', parsed sdk msg context ws = some c ∧
    (handleFinalize fin c).1.result = .ok ∧ (handleQueryContractId id c).1.result = .ok ∧
    ui.screenIndex < (handleFinalize fin c).1.numScreens ∧
    handleQueryContractUi sdk ui c = .returned (m, c') ∧ m.result = .ok

/-- The init call accepts the selectors of the table, and no others. -/
structure InitSound : Prop where
  accepts : (handleInitContract sdk msg context).1.result = .ok ↔
    Supported sdk msg ∧ msg.selector ∈ stakedaoSelectors
  unknown : msg.selector ∉ stakedaoSelectors →
    (handleInitContract sdk msg context).1.result ≠ .ok ∧ ¬ Presented sdk msg context
  entry : (handleInitContract sdk msg context).1.result = .ok →
    stakedaoSelectors[(handleInitContract sdk msg context).2.selectorIndex]? = some msg.selector

theorem selectorIndex_init (h : Supported sdk msg) :
    (handleInitContract sdk msg context).2.selectorIndex =
      chosenIndex msg.selector msg.txContent.destination := by
  rw [handleInitContract_supported sdk msg context h, ← toIndex_chosen]
  rfl

theorem initSound_of_mem (h : msg.selector ∈ stakedaoSelectors) : InitSound sdk msg context where
  accepts := by
    rw [handleInitContract_ok_iff]
    simp [h]
  unknown hn := absurd h hn
  entry hok := by
    rw [selectorIndex_init sdk msg context ((handleInitContract_ok_iff sdk msg context).mp hok)]
    exact getElem?_chosenIndex _ _ h

theorem initSound_of_unsupported (h : ¬ Supported sdk msg) : InitSound sdk msg context where
  accepts := by
    rw [handleInitContract_ok_iff]
    simp [h]
  unknown _ := by
    refine ⟨(handleInitContract_unsupported sdk msg context h).1, ?_⟩
    rintro ⟨ws, c, -, -, -, -, -, hc, -⟩
    exact h (supported_of_parsed sdk hc)
  entry hok := absurd hok (handleInitContract_unsupported sdk msg context h).1

/-- An unknown selector is shown as the operation with index 0. -/
theorem presented_of_unknown (h : Supported sdk msg) (hn : msg.selector ∉ stakedaoSelectors) :
    Presented sdk msg context := by
  have hs : chosen msg.selector msg.txContent.destination = .vaultDeposit := by
    refine StakedaoSelector.toIndex_inj ?_
    rw [toIndex_chosen, chosenIndex_of_not_mem _ _ hn]
    rfl
  have hc : parsed sdk msg context [] = some (initialContext .vaultDeposit) := by
    rw [parsed_eq sdk msg context [] h, hs]
    rfl
  have hi : (initialContext .vaultDeposit).selectorIndex =
      StakedaoSelector.vaultDeposit.toIndex := rfl
  have hf : nameOnScreen .vaultDeposit 0 = some .strategy := rfl
  obtain ⟨m, hm, hok, -⟩ := handleQueryContractUi_name sdk (uiQuery msg.txContent 0 40) hi hf
  exact ⟨[], _, ⟨0, .generic, .error⟩, ⟨⟨[], false⟩, ⟨[], false⟩, .error⟩,
    uiQuery msg.txContent 0 40, m, _, hc, rfl, rfl, (by decide : (0 : UInt8) < 4), hm, hok⟩

/-- The init call is sound exactly for the selectors of the table, and where the
version or the size is refused; every other selector gets as far as a screen. -/
theorem init_sound_iff :
    (InitSound sdk msg context ↔ msg.selector ∈ stakedaoSelectors ∨ ¬ Supported sdk msg) ∧
      (Supported sdk msg → msg.selector ∉ stakedaoSelectors → Presented sdk msg context) := by
  refine ⟨⟨?_, ?_⟩, presented_of_unknown sdk msg context⟩
  · intro hsound
    by_contra hn
    obtain ⟨hmem, hsup⟩ := not_or.mp hn
    exact (hsound.unknown hmem).2 (presented_of_unknown sdk msg context (not_not.mp hsup) hmem)
  · rintro (hmem | hsup)
    · exact initSound_of_mem sdk msg context hmem
    · exact initSound_of_unsupported sdk msg context hsup

end Init

def unknownSelector : Selector := #v[0xde, 0xad, 0xbe, 0xef]

/-- An unknown selector is accepted, with the index of a vault deposit. -/
theorem init_accepts_unknown :
    unknownSelector ∉ stakedaoSelectors ∧
      (handleInitContract referenceSdk (initCall unknownSelector passiveStEth.address)
        .zero).1.result = .ok ∧
      (handleInitContract referenceSdk (initCall unknownSelector passiveStEth.address)
        .zero).2.selectorIndex = StakedaoSelector.vaultDeposit.toIndex ∧
      ¬ InitSound referenceSdk (initCall unknownSelector passiveStEth.address) .zero := by
  have hn : unknownSelector ∉ stakedaoSelectors := by decide
  have hok := initCall_ok unknownSelector passiveStEth.address .zero
  refine ⟨hn, hok, by decide +kernel, ?_⟩
  intro hsound
  exact (hsound.unknown hn).1 hok

section Families

/-- The operation that a shared selector stands for at each contract. -/
def familyOperation (selector : Selector) (destination : Address) : Option StakedaoSelector :=
  if selector = stakedaoVaultWithdrawSelector then
    if destination = palace.address then some .palaceWithdraw
    else if destination = premium.address then some .premiumWithdraw
    else if (strategyAt destination).isSome then some .vaultWithdraw
    else none
  else if selector = stakedaoPalaceStakeSelector then
    if destination = stakedaoNftBoost then some .nftStake
    else if destination = palace.address then some .palaceStake
    else none
  else none

variable (sdk : Sdk) (msg : EthPluginInitContract) (context : StakedaoParameters)

/-- Want and Amount name this ticker, for every amount and after any queries. -/
structure DenominatedIn (ticker : Ticker) : Prop where
  want : ∀ ws c, parsed sdk msg context ws = some c → ∀ qs ui,
    ui.txContent.destination = msg.txContent.destination → ui.screenIndex.toNat = 1 →
    cstr (handleQueryContractUi sdk ui (run (present sdk) qs c)).state.1.msg.bytes =
      (cstr ticker.toList).take (ui.msg.length - 1)
  amount : ∀ ws c, parsed sdk msg context ws = some c → ∀ qs ui,
    ui.txContent.destination = msg.txContent.destination → ui.screenIndex.toNat = 2 →
    MsgBuffer ui → (decimalText 18 (beNat c.amount.toList)).length + 17 ≤ ui.msg.length →
    Shows sdk ui (run (present sdk) qs c)
      (withTicker (decimalText 18 (beNat c.amount.toList)) ticker)

/-- The chosen operation is the one of the contract's family, and withdraws from
Premium and Palace are shown in what they pay out. -/
structure ResolvedByContract : Prop where
  operation : ∀ s, familyOperation msg.selector msg.txContent.destination = some s →
    (handleInitContract sdk msg context).2.selectorIndex = s.toIndex
  nftStake : (handleInitContract sdk msg context).2.selectorIndex =
      StakedaoSelector.nftStake.toIndex ↔
    msg.selector = stakedaoNftStakeSelector ∧ msg.txContent.destination = stakedaoNftBoost
  premium : msg.selector = stakedaoPremiumWithdrawSelector →
    msg.txContent.destination = premium.address → DenominatedIn sdk msg context premium.want
  palace : msg.selector = stakedaoPalaceWithdrawSelector →
    msg.txContent.destination = palace.address → DenominatedIn sdk msg context palace.want

theorem chosenIndex_nftStake_iff (selector : Selector) (destination : Address) :
    chosenIndex selector destination = StakedaoSelector.nftStake.toIndex ↔
      selector = stakedaoNftStakeSelector ∧ destination = stakedaoNftBoost := by
  constructor
  · intro h
    have hm : selector ∈ stakedaoSelectors := by
      by_contra hm
      rw [chosenIndex_of_not_mem selector destination hm] at h
      exact absurd h (by decide)
    have hg := getElem?_chosenIndex selector destination hm
    rw [h] at hg
    obtain rfl : stakedaoNftStakeSelector = selector := Option.some.inj hg
    refine ⟨rfl, ?_⟩
    by_contra hd
    have h17 : chosenIndex stakedaoNftStakeSelector destination = 17 := by
      have hi : stakedaoSelectors.findIdx (· == stakedaoNftStakeSelector) = 17 := rfl
      have hl : stakedaoSelectors.length = 26 := rfl
      simp [chosenIndex, hi, hl, hd]
    rw [h17] at h
    exact absurd h (by decide)
  · rintro ⟨rfl, rfl⟩
    rfl

/-- Behind a shared selector stands the operation of the contract's family, if
that is not one of the two that the search does not reach. -/
theorem chosenIndex_family {selector : Selector} {destination : Address} {s : StakedaoSelector}
    (hn : ¬ (selector = stakedaoVaultWithdrawSelector ∧
      (destination = palace.address ∨ destination = premium.address)))
    (hs : familyOperation selector destination = some s) :
    chosenIndex selector destination = s.toIndex := by
  simp only [familyOperation] at hs
  split_ifs at hs with hw hpalace hpremium hstrategy hstake hnft hpalace
  · exact absurd ⟨hw, Or.inl hpalace⟩ hn
  · exact absurd ⟨hw, Or.inr hpremium⟩ hn
  · obtain rfl : StakedaoSelector.vaultWithdraw = s := Option.some.inj hs
    rw [hw]
    rfl
  · obtain rfl : StakedaoSelector.nftStake = s := Option.some.inj hs
    rw [hstake, hnft]
    rfl
  · obtain rfl : StakedaoSelector.palaceStake = s := Option.some.inj hs
    rw [hstake, hpalace]
    rfl

/-- A withdraw of any strategy is shown in the name of its share. -/
theorem withdraw_denominatedIn_vault (hsdk : sdk.Lawful)
    (hw : msg.selector = stakedaoVaultWithdrawSelector) {v : StakedaoStrategy}
    (hv : strategyAt msg.txContent.destination = some v) :
    DenominatedIn sdk msg context v.vault := by
  have hs : chosen msg.selector msg.txContent.destination = .vaultWithdraw := by
    rw [hw]
    rfl
  have hmem := (strategyAt_eq_some hv).1
  constructor
  · intro ws c hc qs ui hd hi
    have hindex := selectorIndex_run sdk hc qs
    rw [hs] at hindex
    have hf : nameOnScreen .vaultWithdraw ui.screenIndex.toNat = some .vault := by
      rw [hi]
      rfl
    obtain ⟨m, hm, -, htext⟩ := handleQueryContractUi_name sdk ui hindex hf
    rw [← hd] at hv
    have hname := (refresh_strategy (run (present sdk) qs c) hv).2 .vault
    have hterm := strategy_names_terminated .vault v hmem
    rw [hm, Outcome.state_returned, htext, cstr_readFrom .vault (by rw [hname]; exact hterm),
      hname]
    rfl
  · intro ws c hc qs ui hd hi hui hlen
    have hindex := selectorIndex_run sdk hc qs
    rw [hs] at hindex
    have hamount := (sameCall_run c sdk qs).amount
    have h18 : v.decimals.toNat = 18 := by
      rw [strategies_decimals v hmem]
      rfl
    rw [← hd] at hv
    have hf : tickerField .vaultWithdraw = some .vault := rfl
    have hshow := shows_strategy ui hsdk hindex hf hi hui hv (by rw [hamount, h18]; exact hlen)
    rwa [hamount, h18] at hshow

theorem chosen_reachable_iff (s : StakedaoSelector) :
    (∃ msg, (handleInitContract sdk msg context).1.result = .ok ∧
      (handleInitContract sdk msg context).2.selectorIndex = s.toIndex) ↔
    s ≠ .premiumWithdraw ∧ s ≠ .palaceWithdraw := by
  constructor
  · rintro ⟨msg, hok, hs⟩
    have hsup := (handleInitContract_ok_iff sdk msg context).mp hok
    rw [selectorIndex_init sdk msg context hsup] at hs
    constructor
    · rintro rfl
      exact chosenIndex_ne_shadowed _ _ 10 (by decide) rfl hs
    · rintro rfl
      exact chosenIndex_ne_shadowed _ _ 18 (by decide) rfl hs
  · intro hs
    let selector := stakedaoSelectors.getD s.toIndex unknownSelector
    let destination := if s = .nftStake then stakedaoNftBoost else palace.address
    have hchosen : chosenIndex selector destination = s.toIndex := by
      cases s <;> first
        | exact absurd rfl hs.1
        | exact absurd rfl hs.2
        | rfl
    let msg : EthPluginInitContract := ⟨sdk.interfaceVersionLatest,
      sizeofStakedaoParameters sdk.enumSize, selector, callTo destination, .error⟩
    have hsup : Supported sdk msg := ⟨rfl, Nat.le_refl _⟩
    refine ⟨msg, (handleInitContract_ok_iff sdk msg context).mpr hsup, ?_⟩
    rw [selectorIndex_init sdk msg context hsup]
    exact hchosen

/-- A shared selector is resolved by the contract unless it is a withdraw from
Palace or Premium; a withdraw is always shown in the share of the contract, and
the operations written for these two are the ones that no init call chooses. -/
theorem shared_selectors_iff (hsdk : sdk.Lawful)
    (hok : (handleInitContract sdk msg context).1.result = .ok) :
    (ResolvedByContract sdk msg context ↔
      ¬ (msg.selector = stakedaoVaultWithdrawSelector ∧
        (msg.txContent.destination = palace.address ∨
          msg.txContent.destination = premium.address))) ∧
    (∀ v, msg.selector = stakedaoVaultWithdrawSelector →
      strategyAt msg.txContent.destination = some v → DenominatedIn sdk msg context v.vault) ∧
    ∀ s : StakedaoSelector,
      (∃ msg, (handleInitContract sdk msg context).1.result = .ok ∧
        (handleInitContract sdk msg context).2.selectorIndex = s.toIndex) ↔
      s ≠ .premiumWithdraw ∧ s ≠ .palaceWithdraw := by
  have hsup := (handleInitContract_ok_iff sdk msg context).mp hok
  have hindex := selectorIndex_init sdk msg context hsup
  refine ⟨⟨?_, ?_⟩, ?_, chosen_reachable_iff sdk context⟩
  · rintro hres ⟨hw, hd⟩
    -- the first of the three entries, whatever the contract is
    have h1 : (handleInitContract sdk msg context).2.selectorIndex = 1 := by
      rw [hindex, hw]
      rfl
    rcases hd with hd | hd
    · have hop := hres.operation .palaceWithdraw (by rw [hw, hd]; rfl)
      rw [h1] at hop
      exact absurd hop (by decide)
    · have hop := hres.operation .premiumWithdraw (by rw [hw, hd]; rfl)
      rw [h1] at hop
      exact absurd hop (by decide)
  · intro hn
    refine ⟨?_, ?_, ?_, ?_⟩
    · intro s hs
      rw [hindex]
      exact chosenIndex_family hn hs
    · rw [hindex]
      exact chosenIndex_nftStake_iff _ _
    · intro hw hd
      exact absurd ⟨hw, Or.inr hd⟩ hn
    · intro hw hd
      exact absurd ⟨hw, Or.inl hd⟩ hn
  · intro v hw hv
    exact withdraw_denominatedIn_vault sdk msg context hsdk hw hv

end Families

theorem shared_selectors_nftBoost :
    ResolvedByContract referenceSdk (initCall stakedaoNftStakeSelector stakedaoNftBoost) .zero :=
  (shared_selectors_iff referenceSdk (initCall stakedaoNftStakeSelector stakedaoNftBoost) .zero
    referenceSdk_lawful (initCall_ok _ _ .zero)).1.mpr (by decide)

/-- A withdraw from Premium is chosen as one from a vault, and its amount is
shown in the name of the reward. -/
theorem premium_withdraw_in_reward :
    parsed referenceSdk (initCall stakedaoPremiumWithdrawSelector premium.address) .zero
      [wordOf (10 ^ 18)] = some (delivered referenceSdk .vaultWithdraw [wordOf (10 ^ 18)]) ∧
    (handleInitContract referenceSdk
        (initCall stakedaoPremiumWithdrawSelector premium.address) .zero).2.selectorIndex =
      StakedaoSelector.vaultWithdraw.toIndex ∧
    cstr (handleQueryContractUi referenceSdk (uiQuery (callTo premium.address) 2 79)
      (delivered referenceSdk .vaultWithdraw [wordOf (10 ^ 18)])).state.1.msg.bytes =
        literal "1 Reward" ∧
    ¬ ResolvedByContract referenceSdk
      (initCall stakedaoPremiumWithdrawSelector premium.address) .zero := by
  refine ⟨by decide +kernel, by decide +kernel, by decide +kernel, ?_⟩
  intro h
  have hop := h.operation .premiumWithdraw (by decide)
  exact absurd hop (by decide +kernel)

end StakedaoPlugin
