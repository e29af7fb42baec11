import StakedaoPlugin.Sdk

/-! `handle_finalize` and `handle_query_contract_id`: the number of screens and
the name of the operation. -/
namespace StakedaoPlugin
open CMemory

def handleFinalize (msg : EthPluginFinalize) (context : StakedaoParameters) :
    EthPluginFinalize × StakedaoParameters :=
  let msg := { msg with numScreens := 1 }
  let msg :=
    match StakedaoSelector.ofIndex? context.selectorIndex with
    | some .premiumExit | some .premiumGetreward => msg
    | _ => { msg with numScreens := msg.numScreens + 3 }
  ({ msg with uiType := .generic, result := .ok }, context)

def pluginName : String := "StakeDAO"

/-- One case of the switch of `handle_query_contract_id`. -/
def setVersion (version : String) (msg : EthQueryContractID) : EthQueryContractID :=
  { msg with
    name := msg.name.strlcpy (literal pluginName)
    version := msg.version.strlcpy (literal version)
    result := .ok }

def handleQueryContractId (msg : EthQueryContractID) (context : StakedaoParameters) :
    EthQueryContractID × StakedaoParameters :=
  let msg := { msg with name := msg.name.strlcpy (literal pluginName) }
  match StakedaoSelector.ofIndex? context.selectorIndex with
  | some .vaultDeposit | some .vaultDepositAll | some .optDepositEth
  | some .optDepositUnderlying | some .optDepositCrvlp | some .sanctuaryEnter
  | some .premiumStake | some .lpDeposit | some .palaceStake =>
    (setVersion "Deposit" msg, context)
  | some .premiumWithdraw | some .lpWithdraw | some .palaceWithdraw | some .vaultWithdraw
  | some .optWithdrawEth | some .optWithdrawCrvlp | some .optWithdrawUnderlying
  | some .sanctuaryLeave =>
    (setVersion "Withdraw" msg, context)
  | some .premiumGetreward | some .rewardsClaim | some .angleGetReward =>
    (setVersion "Get Reward" msg, context)
  | some .premiumExit => (setVersion "Exit" msg, context)
  | some .nftStake => (setVersion "Stake" msg, context)
  | some .nftUnstake => (setVersion "Unstake" msg, context)
  | some .curveAddL2 | some .curveAddL3 | some .curveAddL3Under =>
    (setVersion "Add Liquidity" msg, context)
  | none => ({ msg with result := .error }, context)

/-- The number of screens announced for an operation. -/
def numScreens : StakedaoSelector → Nat
  | .premiumExit | .premiumGetreward => 1
  | _ => 4

section Spec
variable (s : StakedaoSelector) (context : StakedaoParameters)

theorem handleFinalize_context (msg : EthPluginFinalize) :
    (handleFinalize msg context).2 = context := rfl

theorem handleFinalize_result (msg : EthPluginFinalize) :
    (handleFinalize msg context).1.result = .ok := rfl

theorem handleFinalize_numScreens (msg : EthPluginFinalize)
    (h : context.selectorIndex = s.toIndex) :
    (handleFinalize msg context).1.numScreens.toNat = numScreens s := by
  simp only [handleFinalize, h, StakedaoSelector.ofIndex?_toIndex]
  cases s <;> rfl

theorem handleQueryContractId_context (msg : EthQueryContractID) :
    (handleQueryContractId msg context).2 = context := by
  simp only [handleQueryContractId]
  split <;> rfl

theorem handleQueryContractId_result (msg : EthQueryContractID)
    (h : context.selectorIndex = s.toIndex) :
    (handleQueryContractId msg context).1.result = .ok := by
  simp only [handleQueryContractId, h, StakedaoSelector.ofIndex?_toIndex]
  cases s <;> rfl

end Spec
end StakedaoPlugin
