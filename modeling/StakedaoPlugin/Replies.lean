import StakedaoPlugin.Display
import StakedaoPlugin.StoredArguments

/-! The plugin as it is meant: what each call is answered with, given what the
calls before have told. The plugin answers like that in every order of calls. -/
namespace StakedaoPlugin
open CMemory Simulation

/-- The answer to a call, where it is settled by what is known. -/
inductive Reply where
  | unspecified
  | exactly (answer : PluginCall)
  | exit (exit : Exit)
  | named (msg : EthQueryContractID) (version : String)
  | screen (ui : EthQueryContractUI) (title : String) (text : Option (List UInt8))

def answered (call : PluginCall) : Exit := .libEnd (.message call)

/-- The name of the plugin and of the operation, each cut to its buffer, and
nothing written outside of these. -/
structure Named (msg : EthQueryContractID) (version : String) (m : EthQueryContractID) :
    Prop where
  result : m.result = .ok
  name : cstr m.name.bytes = (cstr (literal pluginName)).take (msg.name.length - 1)
  version : cstr m.version.bytes = (cstr (literal version)).take (msg.version.length - 1)
  nameStray : m.name.stray = msg.name.stray
  versionStray : m.version.stray = msg.version.stray

def Agrees (answer : Outcome Exit) : Reply → Prop
  | .unspecified => True
  | .exactly call => answer = .returned (answered call)
  | .exit exit => answer = .returned exit
  | .named msg version =>
    ∃ m, answer = .returned (answered (.queryContractId m)) ∧ Named msg version m
  | .screen ui title text =>
    ∃ o, Displays ui title text o ∧ answer = o.map fun m => answered (.queryContractUi m)

/-- The name of the operation. -/
def versionText : StakedaoSelector → String
  | .vaultDeposit | .vaultDepositAll | .optDepositEth | .optDepositUnderlying | .optDepositCrvlp
  | .sanctuaryEnter | .premiumStake | .lpDeposit | .palaceStake => "Deposit"
  | .vaultWithdraw | .optWithdrawEth | .optWithdrawUnderlying | .optWithdrawCrvlp
  | .premiumWithdraw | .lpWithdraw | .sanctuaryLeave | .palaceWithdraw => "Withdraw"
  | .premiumGetreward | .rewardsClaim | .angleGetReward => "Get Reward"
  | .premiumExit => "Exit"
  | .nftStake => "Stake"
  | .nftUnstake => "Unstake"
  | .curveAddL2 | .curveAddL3 | .curveAddL3Under => "Add Liquidity"

/-- An init call is accepted for the app's own interface, with room for the context. -/
def initResult (sdk : Sdk) (msg : EthPluginInitContract) : PluginResult :=
  if msg.interfaceVersion = sdk.interfaceVersionLatest then
    if Supported sdk msg then .ok else .error
  else .unavailable

namespace Signing

/-- The answer to a query: the screen that is asked for, where the message buffer
has room for it. -/
def replyUi (sdk : Sdk) (ui : EthQueryContractUI) (t : Signing) : Reply :=
  match (screens t.operation)[ui.screenIndex.toNat]? with
  | some screen =>
    if 1 ≤ ui.msg.length ∧ ui.msg.length ≤ 255 ∧ ui.msg.stray = false ∧
        screen.content.Fits sdk t ui.txContent ui.msg.length then
      .screen ui screen.title (screen.content.shown sdk t ui.txContent ui.msg.length)
    else .unspecified
  | none => .exactly (.queryContractUi { cleared ui with result := .error })

/-- The answer to a message about an operation. -/
def replyMessage (sdk : Sdk) (t : Signing) : PluginCall → Reply
  | .initContract msg => .exactly (.initContract { msg with result := initResult sdk msg })
  | .provideParameter msg =>
    .exactly (.provideParameter
      { msg with result := if headWords t.operation = 0 then .error else .ok })
  | .finalize _ =>
    .exactly (.finalize ⟨UInt8.ofNat (numScreens t.operation), .generic, .ok⟩)
  | .queryContractId msg => .named msg (versionText t.operation)
  | .queryContractUi ui => replyUi sdk ui (t.look ui.txContent.destination)
  | .unhandled message => .exactly (.unhandled message)

end Signing

section Answers
variable {sdk : Sdk} {c : StakedaoParameters} {t : Signing}

theorem handleInitContract_result (msg : EthPluginInitContract) :
    (handleInitContract sdk msg c).1 = { msg with result := initResult sdk msg } := by
  unfold initResult
  by_cases hs : Supported sdk msg
  · rw [handleInitContract_supported sdk msg c hs, if_pos hs.1, if_pos hs]
  · rw [if_neg hs]
    by_cases hv : msg.interfaceVersion = sdk.interfaceVersionLatest
    · have hl : msg.pluginContextLength < sizeofStakedaoParameters sdk.enumSize := by
        by_contra hn
        exact hs ⟨hv, Nat.not_lt.mp hn⟩
      rw [handleInitContract, if_neg (not_not.mpr hv), if_pos hl, if_pos hv]
    · rw [handleInitContract, if_pos hv, if_neg hv]

theorem handleProvideParameter_result (hc : Represents sdk c t)
    (msg : EthPluginProvideParameter) :
    (handleProvideParameter sdk msg c).1 =
      { msg with result := if headWords t.operation = 0 then .error else .ok } := by
  have hindex := hc.selectorIndex
  by_cases h0 : headWords t.operation = 0
  · rw [handleProvideParameter_noParams sdk t.operation c msg h0 hindex, if_pos h0]
  · obtain ⟨d, rest, -, hsuf, hcursor⟩ := cursor_eq h0
    obtain ⟨e, rest', -, hstep⟩ := CursorParser.step_chain (paramCases_chain t.operation) hsuf
    have hfield : c.nextParam = d.field := by
      rw [hc]
      exact hcursor
    rw [handleProvideParameter_eq sdk t.operation c msg hindex, switchNextParam, hfield, hstep,
      if_neg h0]

theorem handleFinalize_answer (hc : Represents sdk c t) (msg : EthPluginFinalize) :
    (handleFinalize msg c).1 = ⟨UInt8.ofNat (numScreens t.operation), .generic, .ok⟩ := by
  simp only [handleFinalize, hc.selectorIndex, StakedaoSelector.ofIndex?_toIndex]
  cases t.operation <;> rfl

theorem named_setVersion (msg : EthQueryContractID) (version : String) :
    Named msg version
      (setVersion version { msg with name := msg.name.strlcpy (literal pluginName) }) where
  result := rfl
  name := by
    have h := Buffer.cstr_strlcpy_over (msg.name.strlcpy (literal pluginName)) (literal pluginName)
    rwa [Buffer.length_strlcpy] at h
  version := Buffer.cstr_strlcpy_over msg.version (literal version)
  nameStray := (Buffer.stray_strlcpy _ _).trans (Buffer.stray_strlcpy _ _)
  versionStray := Buffer.stray_strlcpy _ _

theorem named_handleQueryContractId (hc : Represents sdk c t) (msg : EthQueryContractID) :
    Named msg (versionText t.operation) (handleQueryContractId msg c).1 := by
  simp only [handleQueryContractId, hc.selectorIndex, StakedaoSelector.ofIndex?_toIndex]
  cases t.operation <;> exact named_setVersion msg _

/-- A query is answered about the transaction it is asked for. -/
theorem agrees_replyUi (hsdk : sdk.Lawful) (hc : Represents sdk c t) (ui : EthQueryContractUI) :
    Agrees (((handleQueryContractUi sdk ui c).map fun p => answered (.queryContractUi p.1)))
      ((t.look ui.txContent.destination).replyUi sdk ui) := by
  have hlooked := represents_refresh hc ui.txContent.destination
  have haddress := address_refresh c ui.txContent.destination
  rw [handleQueryContractUi_eq]
  generalize refresh c ui.txContent.destination = r at hlooked haddress ⊢
  have hmap : ((showScreen sdk (cleared ui) r).map fun m => (m, r)).map
      (fun p => answered (.queryContractUi p.1)) =
      (showScreen sdk (cleared ui) r).map fun m => answered (.queryContractUi m) := by
    cases showScreen sdk (cleared ui) r <;> rfl
  rw [hmap]
  unfold Signing.replyUi
  split
  · next screen hscreen =>
    split_ifs with hfits
    · obtain ⟨hpos, hle, hstray, hroom⟩ := hfits
      exact ⟨_, displays_screen hsdk ⟨hpos, hle, hstray⟩ hlooked haddress hscreen hroom, rfl⟩
    · trivial
  · next hnone =>
    have hbeyond : 4 ≤ ui.screenIndex.toNat := by
      rw [List.getElem?_eq_none_iff, screens_length] at hnone
      exact hnone
    rw [showScreen_beyond sdk (cleared ui) hbeyond]
    rfl

/-- Each message about an operation is answered as it is meant. -/
theorem agrees_replyMessage (hsdk : sdk.Lawful) (hc : Represents sdk c t) (call : PluginCall) :
    Agrees ((plugin sdk).answer (some (.message call)) c) (t.replyMessage sdk call) := by
  cases call with
  | initContract msg =>
    exact congrArg (fun m => Outcome.returned (answered (.initContract m)))
      (handleInitContract_result msg)
  | provideParameter msg =>
    exact congrArg (fun m => Outcome.returned (answered (.provideParameter m)))
      (handleProvideParameter_result hc msg)
  | finalize msg =>
    exact congrArg (fun m => Outcome.returned (answered (.finalize m)))
      (handleFinalize_answer hc msg)
  | queryContractId msg =>
    exact ⟨_, rfl, named_handleQueryContractId hc msg⟩
  | queryContractUi ui =>
    have hanswer : (plugin sdk).answer (some (.message (.queryContractUi ui))) c =
        (handleQueryContractUi sdk ui c).map fun p => answered (.queryContractUi p.1) := by
      simp only [plugin, main, dispatchPluginCalls]
      cases handleQueryContractUi sdk ui c <;> rfl
    rw [hanswer]
    exact agrees_replyUi hsdk hc ui
  | unhandled message => rfl

end Answers

/-- The calls of a deposit of one token. -/
def depositInit : EthPluginInitContract :=
  initCall stakedaoVaultDepositSelector passiveStEth.address
def depositWord : Option LibCall := some (.message (.provideParameter ⟨wordOf (10 ^ 18), .error⟩))
def depositScreen (i : UInt8) : Option LibCall :=
  some (.message (.queryContractUi (uiQuery (callTo passiveStEth.address) i 79)))

end StakedaoPlugin
