import StakedaoPlugin.Lib.CursorParser
import StakedaoPlugin.Sdk

/-! `handle_provide_parameter`: one calldata word at a time, by a switch on
`next_param` for each operation. -/
namespace StakedaoPlugin
open CMemory CursorParser

section Copy
variable {n m : Nat}

def copyAmount (dst : Vector UInt8 n) (src : Vector UInt8 m) : Vector UInt8 n :=
  arrayCopy dst src 0 (min n parameterLength)

def copyPid (dst : Vector UInt8 n) (src : Vector UInt8 m) : Vector UInt8 n :=
  arrayCopy dst src (parameterLength - maxStrategyTickerLen) (min n addressLength)

def copyNftId (dst : Vector UInt8 n) (src : Vector UInt8 m) : Vector UInt8 n :=
  arrayCopy dst src (parameterLength - maxStrategyTickerLen) (min n addressLength)

end Copy

/-- What a case of a parameter switch does with the word. -/
inductive Store where
  | amount
  | minAmount
  | pid
  | nftId
  | address
  | skip
deriving DecidableEq

section Handlers
variable (sdk : Sdk)

def Store.apply (a : Store) (parameter : Word) (context : StakedaoParameters) :
    StakedaoParameters :=
  match a with
  | amount => { context with amount := copyAmount context.amount parameter }
  | minAmount => { context with minAmount := copyAmount context.minAmount parameter }
  | pid => { context with pid := copyPid context.pid parameter }
  | nftId => { context with pid := copyNftId context.pid parameter }
  | address => { context with address := sdk.copyAddress parameter }
  | skip => context

/-- `case field: store; next_param = next; break;` -/
def paramCase (field : SelectorField) (store : Store) (next : Option SelectorField) :
    Case UInt8 Store :=
  ⟨field.toByte, store, next.map SelectorField.toByte⟩

/-- `switch (context->next_param)` over the given cases, with the common default. -/
def switchNextParam (cases : List (Case UInt8 Store)) (msg : EthPluginProvideParameter)
    (context : StakedaoParameters) : EthPluginProvideParameter × StakedaoParameters :=
  match step cases context.nextParam with
  | some (store, next) => (msg, { store.apply sdk msg.parameter context with nextParam := next })
  | none => ({ msg with result := .error }, context)

def noParamsCases : List (Case UInt8 Store) := []
def vaultCases : List (Case UInt8 Store) :=
  [paramCase .amount .amount none]
def optMinAmountCases : List (Case UInt8 Store) :=
  [paramCase .amount .amount (some .minAmount),
    paramCase .minAmount .minAmount none]
def premiumStakeCases : List (Case UInt8 Store) :=
  [paramCase .amount .amount (some .nftId),
    paramCase .nftId .nftId none]
def lpCases : List (Case UInt8 Store) :=
  [paramCase .pid .pid (some .amount),
    paramCase .amount .amount none]
def rewardsClaimCases : List (Case UInt8 Store) :=
  [paramCase .merkleIndex .skip (some .index),
    paramCase .index .skip (some .amount),
    paramCase .amount .amount (some .merkleProof),
    paramCase .merkleProof .skip none]
def angleRewardCases : List (Case UInt8 Store) :=
  [paramCase .user .address none]
def nftStakeCases : List (Case UInt8 Store) :=
  [paramCase .nftId .pid none]
def curveAddL2Cases : List (Case UInt8 Store) :=
  [paramCase .token1 .amount (some .token2),
    paramCase .token2 .minAmount (some .minAmount),
    paramCase .minAmount .pid none]
def curveAddL3Cases : List (Case UInt8 Store) :=
  [paramCase .token1 .amount (some .token2),
    paramCase .token2 .amount (some .token3),
    paramCase .token3 .minAmount (some .minAmount),
    paramCase .minAmount .pid none]
def curveAddL3UnderCases : List (Case UInt8 Store) :=
  [paramCase .token1 .amount (some .token2),
    paramCase .token2 .amount (some .token3),
    paramCase .token3 .minAmount (some .minAmount),
    paramCase .minAmount .pid (some .under),
    paramCase .under .skip none]

def handleNoParams := switchNextParam sdk noParamsCases
def handleVault := switchNextParam sdk vaultCases
def handleOptMinAmount := switchNextParam sdk optMinAmountCases
def handlePremiumStake := switchNextParam sdk premiumStakeCases
def handleLp := switchNextParam sdk lpCases
def handleRewardsClaim := switchNextParam sdk rewardsClaimCases
def handleAngleReward := switchNextParam sdk angleRewardCases
def handleNftStake := switchNextParam sdk nftStakeCases
def handleCurveAddL2 := switchNextParam sdk curveAddL2Cases
def handleCurveAddL3 := switchNextParam sdk curveAddL3Cases
def handleCurveAddL3Under := switchNextParam sdk curveAddL3UnderCases

def handleProvideParameter (msg : EthPluginProvideParameter) (context : StakedaoParameters) :
    EthPluginProvideParameter × StakedaoParameters :=
  let msg := { msg with result := .ok }
  match StakedaoSelector.ofIndex? context.selectorIndex with
  | some .vaultDepositAll | some .premiumGetreward | some .premiumExit | some .nftUnstake =>
    handleNoParams sdk msg context
  | some .lpDeposit | some .lpWithdraw => handleLp sdk msg context
  | some .optWithdrawEth | some .optDepositUnderlying | some .optWithdrawUnderlying =>
    handleOptMinAmount sdk msg context
  | some .premiumStake => handlePremiumStake sdk msg context
  | some .vaultDeposit | some .vaultWithdraw | some .optDepositEth | some .optDepositCrvlp
  | some .optWithdrawCrvlp | some .premiumWithdraw | some .sanctuaryEnter
  | some .sanctuaryLeave | some .palaceStake | some .palaceWithdraw =>
    handleVault sdk msg context
  | some .rewardsClaim => handleRewardsClaim sdk msg context
  | some .nftStake => handleNftStake sdk msg context
  | some .angleGetReward => handleAngleReward sdk msg context
  | some .curveAddL2 => handleCurveAddL2 sdk msg context
  | some .curveAddL3 => handleCurveAddL3 sdk msg context
  | some .curveAddL3Under => handleCurveAddL3Under sdk msg context
  | none => ({ msg with result := .error }, context)

/-- The calldata words in turn, as long as each is accepted. -/
def provideParameters : StakedaoParameters → List Word → Option StakedaoParameters
  | context, [] => some context
  | context, w :: ws =>
    let (msg, context) := handleProvideParameter sdk ⟨w, .ok⟩ context
    if msg.result = .ok then provideParameters context ws else none

end Handlers

/-- The switch that `handle_provide_parameter` reaches for an operation. -/
def paramCases : StakedaoSelector → List (Case UInt8 Store)
  | .vaultDepositAll | .premiumGetreward | .premiumExit | .nftUnstake => noParamsCases
  | .lpDeposit | .lpWithdraw => lpCases
  | .optWithdrawEth | .optDepositUnderlying | .optWithdrawUnderlying => optMinAmountCases
  | .premiumStake => premiumStakeCases
  | .vaultDeposit | .vaultWithdraw | .optDepositEth | .optDepositCrvlp | .optWithdrawCrvlp
  | .premiumWithdraw | .sanctuaryEnter | .sanctuaryLeave | .palaceStake | .palaceWithdraw =>
    vaultCases
  | .rewardsClaim => rewardsClaimCases
  | .nftStake => nftStakeCases
  | .angleGetReward => angleRewardCases
  | .curveAddL2 => curveAddL2Cases
  | .curveAddL3 => curveAddL3Cases
  | .curveAddL3Under => curveAddL3UnderCases

section Spec
variable (sdk : Sdk) (s : StakedaoSelector) (context : StakedaoParameters)

theorem copyAmount_word (dst src : Word) : copyAmount dst src = src :=
  arrayCopy_full dst src

/-- The low half of a word, which is what the 16-byte slot receives. -/
def lowHalf (w : Word) : Ticker := Vector.ofFn fun i => w[16 + i.val]?.getD 0

theorem copyPid_word (dst : Ticker) (src : Word) : copyPid dst src = lowHalf src := by
  refine Vector.ext fun i hi => ?_
  have hmin : min 16 addressLength = 16 := rfl
  simp [copyPid, arrayCopy, lowHalf, hmin, parameterLength, maxStrategyTickerLen]

theorem copyNftId_word (dst : Ticker) (src : Word) : copyNftId dst src = lowHalf src :=
  copyPid_word dst src

theorem handleProvideParameter_eq (msg : EthPluginProvideParameter)
    (h : context.selectorIndex = s.toIndex) :
    handleProvideParameter sdk msg context =
      switchNextParam sdk (paramCases s) { msg with result := .ok } context := by
  simp only [handleProvideParameter, h, StakedaoSelector.ofIndex?_toIndex]
  cases s <;> rfl

theorem Store.apply_selectorIndex (a : Store) (w : Word) :
    (a.apply sdk w context).selectorIndex = context.selectorIndex := by
  cases a <;> simp only [Store.apply]

/-- Storing a word and moving the cursor do not disturb each other. -/
theorem Store.apply_with_nextParam (a : Store) (w : Word) (f : UInt8) :
    a.apply sdk w { context with nextParam := f } =
      { a.apply sdk w context with nextParam := f } := by
  cases a <;> rfl

/-- The words of one call are parsed by the cursor parser of the operation. -/
theorem provideParameters_eq_run (ws : List Word) (h : context.selectorIndex = s.toIndex) :
    provideParameters sdk context ws =
      (run (paramCases s) (Store.apply sdk) context.nextParam ws context).map
        fun p => { p.2 with nextParam := p.1 } := by
  -- the cursor lives in the context here and beside it in the parser
  have hgen (ws : List Word) : ∀ (f : UInt8) (c : StakedaoParameters),
      c.selectorIndex = s.toIndex →
      provideParameters sdk { c with nextParam := f } ws =
        (run (paramCases s) (Store.apply sdk) f ws c).map
          fun p => { p.2 with nextParam := p.1 } := by
    induction ws with
    | nil => intro f c _; rfl
    | cons w ws ih =>
      intro f c hc
      rw [provideParameters, handleProvideParameter_eq sdk s { c with nextParam := f } _ hc,
        switchNextParam, run]
      cases hstep : step (paramCases s) f with
      | none => simp
      | some p =>
        obtain ⟨a, g⟩ := p
        have ha : (a.apply sdk w c).selectorIndex = s.toIndex := by
          rw [Store.apply_selectorIndex, hc]
        simp only [Store.apply_with_nextParam, if_true, Option.bind_some]
        exact ih g (a.apply sdk w c) ha
  exact hgen ws context.nextParam context h

end Spec
end StakedaoPlugin
