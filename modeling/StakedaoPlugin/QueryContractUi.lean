import StakedaoPlugin.ProvideParameter
import StakedaoPlugin.Tables

/-! `handle_query_contract_ui`: the two table lookups that each query repeats,
and the text of the screen asked for. -/
namespace StakedaoPlugin
open CMemory

def setTitle (title : String) (msg : EthQueryContractUI) : EthQueryContractUI :=
  { msg with title := msg.title.strlcpy (literal title) }

/-- The body of the setters that copy a title and a text. -/
def setTexts (title : String) (text : List UInt8) (msg : EthQueryContractUI) :
    EthQueryContractUI :=
  { setTitle title msg with msg := msg.msg.strlcpy text }

section Setters
variable (sdk : Sdk) (msg : EthQueryContractUI) (context : StakedaoParameters)

/-- `amountToString(.., msg->msg, msg->msgLength)`; the length is passed as a byte. -/
def amountToMsg (amount : List UInt8) (decimals : UInt8) (ticker : List UInt8) :
    Outcome EthQueryContractUI :=
  match sdk.amountToString amount decimals ticker (UInt8.ofNat msg.msg.length) with
  | some text => .returned { msg with msg := msg.msg.write 0 (text ++ [0]) }
  | none => .thrown msg

def copyAmountWithTicker (amount : List UInt8) (amountDecimals : UInt8) (ticker : List UInt8)
    (outBuffer : Buffer) (outBufferSize : UInt8) : Outcome Buffer :=
  match sdk.amountToString amount amountDecimals [] 100 with
  | none => .thrown outBuffer
  | some text =>
    let tmpBuffer := (Buffer.mk (List.replicate 100 0) false).write 0 (text ++ [0])
    let amountLen := (cstr tmpBuffer.bytes).length % 256
    let outBuffer := outBuffer.write 0 (tmpBuffer.bytes.take amountLen)
    let outBuffer := outBuffer.write amountLen [32]
    let outBuffer := outBuffer.write (amountLen + 1) ticker
    .returned (outBuffer.poke ((outBufferSize.toNat : Int) - 1) 0)

def setStrategyName := setTexts "Strategy" context.fromStrategy msg
def setRewardsName := setTexts "Rewards" (literal "Claim") msg
def setNftBoostName := setTexts "Strategy" (literal "NFTBoost") msg
def setRewardsReceiveName := setTexts "Receive" (literal "xSDT") msg
def setAngleRewardsReceiveName := setTexts "Receive" (literal "ANGLE") msg
def setCurvePoolName := setTexts "Pool" context.fromVault msg
def setMasterchefName :=
  amountToMsg sdk (setTitle "LP Farming PID" msg) context.pid.toList 0 []
def setWantName := setTexts "Want" context.fromWant msg
def setMasterchefWantName := setTexts "Want" (literal "LP") msg
def setWantNameSdToken := setTexts "Want" context.fromVault msg
def setNftWantName := setTexts "Want" (literal "StakeDAO NFTs") msg
def setCurvePoolAmount := setTexts "Amount" (literal "Selected") msg
def setAmountWithAll := setTexts "Amount" (literal "ALL") msg
def setNftId := amountToMsg sdk (setTitle "Id" msg) context.pid.toList 0 []
def setNftAmount := setTexts "Amount" (literal "1") msg
def setEthAmount :=
  amountToMsg sdk (setTitle "Amount" msg) msg.txContent.value.bytes 18 (literal "ETH")
def setRewardAmount :=
  amountToMsg sdk (setTitle "Amount" msg) context.amount.toList 18 (literal "xSDT")

/-- `set_amount` and `set_sd_amount` for the ticker they append. -/
def setTickerAmount (ticker : Ticker) : Outcome EthQueryContractUI :=
  let msg := setTitle "Amount" msg
  (copyAmountWithTicker sdk context.amount.toList context.decimals ticker.toList msg.msg
    (UInt8.ofNat msg.msg.length)).map fun out => { msg with msg := out }

def setAmount := setTickerAmount sdk msg context context.want
def setSdAmount := setTickerAmount sdk msg context context.vault

def setStrategyUi : EthQueryContractUI :=
  let msg := setTitle "Strategy" msg
  { msg with
    msg := ((msg.msg.write 0 [48]).write 1 [120]).write 2
      (sdk.getEthAddressStringFromBinary context.address 0) }

end Setters

section Screens
variable (sdk : Sdk) (msg : EthQueryContractUI) (context : StakedaoParameters)

/-- The inner switch for screen 0. -/
def showName : Outcome EthQueryContractUI :=
  match StakedaoSelector.ofIndex? context.selectorIndex with
  | some .lpDeposit | some .lpWithdraw => setMasterchefName sdk msg context
  | some .rewardsClaim | some .angleGetReward => .returned (setRewardsName msg)
  | some .nftStake | some .nftUnstake => .returned (setNftBoostName msg)
  | some .curveAddL2 | some .curveAddL3 | some .curveAddL3Under =>
    .returned (setCurvePoolName msg context)
  | _ => .returned (setStrategyName msg context)

/-- The inner switch for screen 1. -/
def showWant : EthQueryContractUI :=
  match StakedaoSelector.ofIndex? context.selectorIndex with
  | some .lpDeposit | some .lpWithdraw => setMasterchefWantName msg
  | some .optWithdrawEth | some .optWithdrawUnderlying | some .optWithdrawCrvlp
  | some .vaultWithdraw | some .sanctuaryLeave => setWantNameSdToken msg context
  | some .rewardsClaim => setRewardsReceiveName msg
  | some .nftStake => setNftWantName msg
  | some .nftUnstake => setNftWantName msg
  | some .angleGetReward => setAngleRewardsReceiveName msg
  | _ => setWantName msg context

/-- The inner switch for screen 2. -/
def showAmount : Outcome EthQueryContractUI :=
  match StakedaoSelector.ofIndex? context.selectorIndex with
  | some .vaultDepositAll | some .premiumExit | some .premiumGetreward
  | some .angleGetReward => .returned (setAmountWithAll msg)
  | some .optDepositEth => setEthAmount sdk msg
  | some .optWithdrawEth | some .optWithdrawUnderlying | some .optWithdrawCrvlp
  | some .vaultWithdraw | some .sanctuaryLeave => setSdAmount sdk msg context
  | some .vaultDeposit | some .sanctuaryEnter | some .optDepositUnderlying
  | some .optDepositCrvlp | some .palaceStake | some .palaceWithdraw | some .premiumStake
  | some .premiumWithdraw | some .lpDeposit | some .lpWithdraw => setAmount sdk msg context
  | some .rewardsClaim => setRewardAmount sdk msg context
  | some .nftStake => setNftId sdk msg context
  | some .nftUnstake => .returned (setNftAmount msg)
  | some .curveAddL2 | some .curveAddL3 | some .curveAddL3Under =>
    .returned (setCurvePoolAmount msg)
  | none => .returned msg

def showScreen : Outcome EthQueryContractUI :=
  match msg.screenIndex.toNat with
  | 0 => showName sdk msg context
  | 1 => .returned (showWant msg context)
  | 2 => showAmount sdk msg context
  | 3 => .returned (setStrategyUi sdk msg context)
  | _ => .returned { msg with result := .error }

end Screens

section Lookup
variable (context : StakedaoParameters)

/-- The loop over `STAKEDAO_STRATEGIES`. -/
def lookupStrategy : StakedaoParameters :=
  match stakedaoStrategies.find? (fun v => v.address == context.address) with
  | some currentVault =>
    { context with
      decimals := currentVault.decimals
      want := arrayCopy context.want currentVault.want 0 maxStrategyTickerLen
      strategy := arrayCopy context.strategy currentVault.strategy 0 maxStrategyTickerLen
      vault := arrayCopy context.vault currentVault.vault 0 maxStrategyTickerLen }
  | none => context

/-- The loop over `CURVE_POOLS`. -/
def lookupPool : StakedaoParameters :=
  match curvePools.find? (fun p => p.address == context.address) with
  | some currentPool =>
    { context with
      want := arrayCopy context.want currentPool.want 0 maxStrategyTickerLen
      vault := arrayCopy context.vault currentPool.pool 0 maxStrategyTickerLen }
  | none => context

/-- The part of each query that writes the context: the destination, then the two lookups. -/
def refresh (destination : Address) : StakedaoParameters :=
  lookupPool <| lookupStrategy
    { context with address := copyAmount context.address destination }

end Lookup

section Handler
variable (sdk : Sdk) (msg : EthQueryContractUI) (context : StakedaoParameters)

def handleQueryContractUiVaults : Outcome (EthQueryContractUI × StakedaoParameters) :=
  let context := refresh context msg.txContent.destination
  (showScreen sdk msg context).map fun m => (m, context)

/-- The message after the two `memset`s and the assignment of the result. -/
def cleared : EthQueryContractUI :=
  { msg with title := msg.title.memset 0, msg := msg.msg.memset 0, result := .ok }

def handleQueryContractUi : Outcome (EthQueryContractUI × StakedaoParameters) :=
  handleQueryContractUiVaults sdk (cleared msg) context

theorem handleQueryContractUi_context :
    (handleQueryContractUi sdk msg context).state.2 = refresh context msg.txContent.destination := by
  simp [handleQueryContractUi, handleQueryContractUiVaults, cleared]

theorem handleQueryContractUi_eq :
    handleQueryContractUi sdk msg context =
      (showScreen sdk (cleared msg) (refresh context msg.txContent.destination)).map
        fun m => (m, refresh context msg.txContent.destination) := rfl

end Handler

/-- A query with a title buffer of 40 bytes and a message buffer of the given length. -/
def uiQuery (tx : TxContent) (screenIndex : UInt8) (msgLength : Nat) : EthQueryContractUI :=
  ⟨tx, screenIndex, ⟨List.replicate 40 0, false⟩, ⟨List.replicate msgLength 0, false⟩, .ok⟩

theorem length_uiQuery (tx : TxContent) (screenIndex : UInt8) (msgLength : Nat) :
    (uiQuery tx screenIndex msgLength).msg.length = msgLength := List.length_replicate

end StakedaoPlugin
