import StakedaoPlugin.Sdk
import StakedaoPlugin.Tables
import Mathlib.Tactic.SplitIfs

/-! `handle_init_contract`: version and size checks, the selector search, and
the first field that is expected. -/
namespace StakedaoPlugin
variable (sdk : Sdk) (msg : EthPluginInitContract) (context : StakedaoParameters)

/-- The loop over `STAKEDAO_SELECTORS`, left at the first match with index `i`. -/
def searchSelectors (i : Nat) (context : StakedaoParameters) : StakedaoParameters :=
  if i < stakedaoSelectors.length then
    if i = 17 ∧ msg.txContent.destination = stakedaoNftBoost then
      { context with selectorIndex := 20 }
    else
      { context with selectorIndex := i }
  else context

/-- The second switch: the first field to parse, and the result. -/
def expectFirstParam (context : StakedaoParameters) :
    EthPluginInitContract × StakedaoParameters :=
  match StakedaoSelector.ofIndex? context.selectorIndex with
  | some .vaultDepositAll | some .optDepositEth | some .premiumExit
  | some .premiumGetreward | some .nftUnstake =>
    ({ msg with result := .ok }, context)
  | some .vaultDeposit | some .vaultWithdraw | some .optWithdrawEth
  | some .optDepositUnderlying | some .optDepositCrvlp | some .optWithdrawUnderlying
  | some .optWithdrawCrvlp | some .premiumStake | some .premiumWithdraw
  | some .sanctuaryEnter | some .sanctuaryLeave | some .palaceStake | some .palaceWithdraw =>
    ({ msg with result := .ok }, { context with nextParam := SelectorField.amount.toByte })
  | some .lpDeposit | some .lpWithdraw =>
    ({ msg with result := .ok },
      { context with nextParam := SelectorField.pid.toByte, decimals := 18 })
  | some .rewardsClaim =>
    ({ msg with result := .ok }, { context with nextParam := SelectorField.merkleIndex.toByte })
  | some .nftStake =>
    ({ msg with result := .ok }, { context with nextParam := SelectorField.nftId.toByte })
  | some .angleGetReward =>
    ({ msg with result := .ok }, { context with nextParam := SelectorField.user.toByte })
  | some .curveAddL2 | some .curveAddL3 | some .curveAddL3Under =>
    ({ msg with result := .ok }, { context with nextParam := SelectorField.token1.toByte })
  | none => ({ msg with result := .error }, context)

def handleInitContract : EthPluginInitContract × StakedaoParameters :=
  if msg.interfaceVersion ≠ sdk.interfaceVersionLatest then
    ({ msg with result := .unavailable }, context)
  else if msg.pluginContextLength < sizeofStakedaoParameters sdk.enumSize then
    ({ msg with result := .error }, context)
  else
    let i := stakedaoSelectors.findIdx (· == msg.selector)
    let context := searchSelectors msg i .zero
    -- no return after a failed search: the second switch sets the result again
    let msg := if i = stakedaoSelectors.length then { msg with result := .unavailable } else msg
    expectFirstParam msg context

/-- The selector index that the search leaves: the first match, entry 20 in
place of 17 for the NFT booster, and 0 when there is no match. -/
def chosenIndex (selector : Selector) (destination : Address) : Nat :=
  let i := stakedaoSelectors.findIdx (· == selector)
  if i < stakedaoSelectors.length then
    if i = 17 ∧ destination = stakedaoNftBoost then 20 else i
  else 0

/-- What the second switch of `handle_init_contract` leaves for an operation. -/
def initialContext (s : StakedaoSelector) : StakedaoParameters :=
  { StakedaoParameters.zero with
    selectorIndex := s.toIndex
    nextParam := SelectorField.toByte <|
      match s with
      | .lpDeposit | .lpWithdraw => .pid
      | .rewardsClaim => .merkleIndex
      | .nftStake => .nftId
      | .angleGetReward => .user
      | .curveAddL2 | .curveAddL3 | .curveAddL3Under => .token1
      | _ => .amount
    decimals := if s = .lpDeposit ∨ s = .lpWithdraw then 18 else 0 }

theorem chosenIndex_lt (selector : Selector) (destination : Address) :
    chosenIndex selector destination < 26 := by
  have hl : stakedaoSelectors.length = 26 := rfl
  simp only [chosenIndex]
  split_ifs <;> omega

/-- The operation that the Ethereum app is told to sign. -/
def chosen (selector : Selector) (destination : Address) : StakedaoSelector :=
  StakedaoSelector.all.get ⟨chosenIndex selector destination, chosenIndex_lt selector destination⟩

theorem ofIndex?_chosenIndex (selector : Selector) (destination : Address) :
    StakedaoSelector.ofIndex? (chosenIndex selector destination) =
      some (chosen selector destination) :=
  List.getElem?_eq_getElem (chosenIndex_lt selector destination)

theorem toIndex_chosen (selector : Selector) (destination : Address) :
    (chosen selector destination).toIndex = chosenIndex selector destination :=
  StakedaoSelector.toIndex_of_ofIndex? (ofIndex?_chosenIndex selector destination)

theorem searchSelectors_zero :
    searchSelectors msg (stakedaoSelectors.findIdx (· == msg.selector)) .zero =
      { StakedaoParameters.zero with
        selectorIndex := (chosen msg.selector msg.txContent.destination).toIndex } := by
  rw [toIndex_chosen]
  simp only [searchSelectors, chosenIndex]
  split_ifs <;> rfl

theorem expectFirstParam_zero (s : StakedaoSelector) :
    expectFirstParam msg { StakedaoParameters.zero with selectorIndex := s.toIndex } =
      ({ msg with result := .ok }, initialContext s) := by
  cases s <;> rfl

def Supported : Prop :=
  msg.interfaceVersion = sdk.interfaceVersionLatest ∧
    sizeofStakedaoParameters sdk.enumSize ≤ msg.pluginContextLength

/-- Behind the two checks nothing can fail, whatever the selector is. -/
theorem handleInitContract_supported (h : Supported sdk msg) :
    handleInitContract sdk msg context =
      ({ msg with result := .ok },
        initialContext (chosen msg.selector msg.txContent.destination)) := by
  have hv : ¬ msg.interfaceVersion ≠ sdk.interfaceVersionLatest := by simp [h.1]
  have hl : ¬ msg.pluginContextLength < sizeofStakedaoParameters sdk.enumSize := by
    have := h.2
    omega
  simp only [handleInitContract, if_neg hv, if_neg hl, searchSelectors_zero,
    expectFirstParam_zero]
  split_ifs <;> rfl

theorem handleInitContract_unsupported (h : ¬ Supported sdk msg) :
    (handleInitContract sdk msg context).1.result ≠ .ok ∧
      (handleInitContract sdk msg context).2 = context := by
  by_cases hv : msg.interfaceVersion = sdk.interfaceVersionLatest
  · have hl : msg.pluginContextLength < sizeofStakedaoParameters sdk.enumSize := by
      by_contra hn
      exact h ⟨hv, by omega⟩
    simp [handleInitContract, hv, hl]
  · simp [handleInitContract, hv]

theorem handleInitContract_ok_iff :
    (handleInitContract sdk msg context).1.result = .ok ↔ Supported sdk msg := by
  constructor
  · intro hok
    by_contra h
    exact (handleInitContract_unsupported sdk msg context h).1 hok
  · intro h
    rw [handleInitContract_supported sdk msg context h]

/-- The static assertion of the header is there for this: no init call of the app
is refused for the size of the context. -/
theorem supported_of_context {sdk : Sdk} {msg : EthPluginInitContract}
    (henum : sdk.enumSize ∈ [1, 2, 4]) (hv : msg.interfaceVersion = sdk.interfaceVersionLatest)
    (hl : 5 * 32 ≤ msg.pluginContextLength) : Supported sdk msg :=
  ⟨hv, Nat.le_trans (sizeofStakedaoParameters_le sdk.enumSize henum) hl⟩

def initCall (selector : Selector) (destination : Address) : EthPluginInitContract :=
  ⟨5, 160, selector, callTo destination, .error⟩

theorem supported_initCall (selector : Selector) (destination : Address) :
    Supported referenceSdk (initCall selector destination) :=
  supported_of_context (by decide) rfl (Nat.le_refl 160)

theorem initCall_ok (selector : Selector) (destination : Address) (context : StakedaoParameters) :
    (handleInitContract referenceSdk (initCall selector destination) context).1.result = .ok :=
  (handleInitContract_ok_iff referenceSdk _ context).mpr (supported_initCall selector destination)

end StakedaoPlugin
