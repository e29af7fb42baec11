import StakedaoPlugin.Debug.Log
import StakedaoPlugin.Session
import Mathlib.Logic.Function.Basic

/-! The debug build: what each call of `main` prints, and what can be read from the
text of a whole run. -/
namespace StakedaoPlugin.Debug
open CMemory CursorParser Simulation

/-- A call, and the offset that a parameter message has beside its word. -/
structure LoggedCall where
  arg0 : Option LibCall
  parameterOffset : UInt32

section Handlers
variable (sdk : Sdk) (context : StakedaoParameters)

/-- The line in the default of a parameter switch. -/
def switchNextParamLog (cases : List (Case UInt8 Store)) (line : Line) : List Line :=
  match step cases context.nextParam with
  | some _ => []
  | none => [line]

def handleNoParamsLog :=
  switchNextParamLog context noParamsCases (.paramNotSupportedAt context.nextParam)
def handleVaultLog := switchNextParamLog context vaultCases .paramNotSupported
def handleOptMinAmountLog := switchNextParamLog context optMinAmountCases .paramNotSupported
def handlePremiumStakeLog := switchNextParamLog context premiumStakeCases .paramNotSupported
def handleLpLog := switchNextParamLog context lpCases .paramNotSupported
def handleRewardsClaimLog := switchNextParamLog context rewardsClaimCases .paramNotSupported
def handleAngleRewardLog := switchNextParamLog context angleRewardCases .paramNotSupported
def handleNftStakeLog := switchNextParamLog context nftStakeCases .paramNotSupported
def handleCurveAddL2Log := switchNextParamLog context curveAddL2Cases .paramNotSupported
def handleCurveAddL3Log := switchNextParamLog context curveAddL3Cases .paramNotSupported
def handleCurveAddL3UnderLog := switchNextParamLog context curveAddL3UnderCases .paramNotSupported

/-- The error line of `handle_provide_parameter`, behind the line for the word. -/
def parameterErrors : List Line :=
  match StakedaoSelector.ofIndex? context.selectorIndex with
  | some .vaultDepositAll | some .premiumGetreward | some .premiumExit | some .nftUnstake =>
    handleNoParamsLog context
  | some .lpDeposit | some .lpWithdraw => handleLpLog context
  | some .optWithdrawEth | some .optDepositUnderlying | some .optWithdrawUnderlying =>
    handleOptMinAmountLog context
  | some .premiumStake => handlePremiumStakeLog context
  | some .vaultDeposit | some .vaultWithdraw | some .optDepositEth | some .optDepositCrvlp
  | some .optWithdrawCrvlp | some .premiumWithdraw | some .sanctuaryEnter
  | some .sanctuaryLeave | some .palaceStake | some .palaceWithdraw => handleVaultLog context
  | some .rewardsClaim => handleRewardsClaimLog context
  | some .nftStake => handleNftStakeLog context
  | some .angleGetReward => handleAngleRewardLog context
  | some .curveAddL2 => handleCurveAddL2Log context
  | some .curveAddL3 => handleCurveAddL3Log context
  | some .curveAddL3Under => handleCurveAddL3UnderLog context
  | none => [.selectorIndexNotSupported (UInt32.ofNat context.selectorIndex)]

def handleProvideParameterLog (parameterOffset : UInt32) (msg : EthPluginProvideParameter) :
    List Line :=
  .parameter parameterOffset msg.parameter :: parameterErrors context

def handleInitContractLog (msg : EthPluginInitContract) : List Line :=
  if msg.interfaceVersion ≠ sdk.interfaceVersionLatest then []
  else if msg.pluginContextLength < sizeofStakedaoParameters sdk.enumSize then []
  else
    let i := stakedaoSelectors.findIdx (· == msg.selector)
    match StakedaoSelector.ofIndex? (searchSelectors msg i .zero).selectorIndex with
    | some _ => []
    | none => [.missingSelectorIndex]

def handleQueryContractIdLog : List Line :=
  match StakedaoSelector.ofIndex? context.selectorIndex with
  | some _ => []
  | none => [.idNotSupported (UInt32.ofNat context.selectorIndex)]

def handleQueryContractUiLog (msg : EthQueryContractUI) : List Line :=
  if msg.screenIndex.toNat ≤ 3 then [] else [.invalidScreenIndex]

def dispatchPluginCallsLog (parameterOffset : UInt32) : PluginCall → List Line
  | .initContract msg => handleInitContractLog sdk msg
  | .provideParameter msg => handleProvideParameterLog context parameterOffset msg
  | .finalize _ => []
  | .queryContractId _ => handleQueryContractIdLog context
  | .queryContractUi msg => handleQueryContractUiLog msg
  | .unhandled message => [.unhandledMessage (UInt32.ofInt message)]

/-- What a call prints; only the dispatched messages do. -/
def mainLog (call : LoggedCall) : List Line :=
  match call.arg0 with
  | none => []
  | some .checkPresence => []
  | some (.message msg) => dispatchPluginCallsLog sdk context call.parameterOffset msg

end Handlers

/-- A calldata word with its offset, and whether the plugin took it. -/
structure Received where
  parameterOffset : UInt32
  parameter : Word
  result : PluginResult
deriving DecidableEq

section Runs
variable (sdk : Sdk)

/-- The plugin with the lines that it prints. -/
def logger : Mealy LoggedCall (List Line) StakedaoParameters where
  next call := (plugin sdk).next call.arg0
  answer call context := mainLog sdk context call

/-- The plugin with the words that it answers. -/
def receiver : Mealy LoggedCall (List Received) StakedaoParameters where
  next call := (plugin sdk).next call.arg0
  answer call context :=
    match call.arg0 with
    | some (.message (.provideParameter msg)) =>
      [⟨call.parameterOffset, msg.parameter, (handleProvideParameter sdk msg context).1.result⟩]
    | _ => []

def printed (calls : List LoggedCall) (memory : StakedaoParameters) : Printed :=
  printLines ((logger sdk).answers calls memory).flatten

def received (calls : List LoggedCall) (memory : StakedaoParameters) : List Received :=
  ((receiver sdk).answers calls memory).flatten

end Runs

/-- The lines that a refused word leaves behind it. -/
def Line.refuses : Line → Bool
  | paramNotSupported | paramNotSupportedAt _ | selectorIndexNotSupported _ => true
  | parameter _ _ | idNotSupported _ | missingSelectorIndex | invalidScreenIndex
  | unhandledMessage _ => false

/-- What the lines say about the words. -/
def heard : List Line → List Received
  | [] => []
  | l :: ls =>
    match l with
    | .parameter offset word =>
      ⟨offset, word, if ls.head?.any Line.refuses then .error else .ok⟩ :: heard ls
    | .paramNotSupported | .paramNotSupportedAt _ | .selectorIndexNotSupported _
    | .idNotSupported _ | .missingSelectorIndex | .invalidScreenIndex | .unhandledMessage _ =>
      heard ls

section Lines
variable {sdk : Sdk} {context : StakedaoParameters}

/-- A word is answered with an error exactly if a line says so. -/
def Told (errors : List Line) (result : PluginResult) : Prop :=
  (errors = [] ∧ result = .ok) ∨ ∃ l : Line, errors = [l] ∧ l.refuses = true ∧ result = .error

theorem told_switchNextParam (cases : List (Case UInt8 Store)) {line : Line}
    (hline : line.refuses = true) {msg : EthPluginProvideParameter} (hmsg : msg.result = .ok) :
    Told (switchNextParamLog context cases line)
      (switchNextParam sdk cases msg context).1.result := by
  unfold switchNextParamLog switchNextParam
  cases step cases context.nextParam with
  | none => exact Or.inr ⟨line, rfl, hline, rfl⟩
  | some p => exact Or.inl ⟨rfl, hmsg⟩

theorem told_handleProvideParameter (msg : EthPluginProvideParameter) :
    Told (parameterErrors context) (handleProvideParameter sdk msg context).1.result := by
  unfold parameterErrors handleProvideParameter
  cases StakedaoSelector.ofIndex? context.selectorIndex with
  | none => exact Or.inr ⟨_, rfl, rfl, rfl⟩
  | some s =>
    cases s with
    | _ => exact told_switchNextParam _ rfl rfl

/-- Nothing but a word is followed by a line that refuses one. -/
def Quiet (ls : List Line) : Prop := ls.head?.any Line.refuses = false

theorem quiet_mainLog (call : LoggedCall) : Quiet (mainLog sdk context call) := by
  obtain ⟨arg0, parameterOffset⟩ := call
  unfold Quiet
  rcases arg0 with _ | _ | call
  · rfl
  · rfl
  · cases call with
    | initContract msg =>
      simp only [mainLog, dispatchPluginCallsLog, handleInitContractLog]
      split_ifs
      · rfl
      · rfl
      · split <;> rfl
    | provideParameter msg => rfl
    | finalize msg => rfl
    | queryContractId msg =>
      simp only [mainLog, dispatchPluginCallsLog, handleQueryContractIdLog]
      split <;> rfl
    | queryContractUi msg =>
      simp only [mainLog, dispatchPluginCallsLog, handleQueryContractUiLog]
      split_ifs <;> rfl
    | unhandled message => rfl

theorem Quiet.append {ls ms : List Line} (hl : Quiet ls) (hm : Quiet ms) : Quiet (ls ++ ms) := by
  cases ls with
  | nil => exact hm
  | cons l ls => exact hl

/-- The lines of one call say what it answered, whatever lines come behind. -/
theorem heard_mainLog (call : LoggedCall) {ls : List Line} (hls : Quiet ls) :
    heard (mainLog sdk context call ++ ls) = (receiver sdk).answer call context ++ heard ls := by
  obtain ⟨arg0, parameterOffset⟩ := call
  rcases arg0 with _ | _ | call
  · rfl
  · rfl
  · cases call with
    | initContract msg =>
      simp only [mainLog, dispatchPluginCallsLog, handleInitContractLog]
      split_ifs
      · rfl
      · rfl
      · split <;> rfl
    | provideParameter msg =>
      simp only [mainLog, dispatchPluginCallsLog, handleProvideParameterLog, receiver]
      have htold : Told (parameterErrors context)
          (handleProvideParameter sdk msg context).1.result := told_handleProvideParameter msg
      cases htold with
      | inl h =>
        obtain ⟨herrors, hresult⟩ := h
        have hquiet : ls.head?.any Line.refuses = false := hls
        rw [herrors, hresult, List.cons_append, List.nil_append]
        simp only [heard, hquiet]
        rfl
      | inr h =>
        obtain ⟨l, herrors, hl, hresult⟩ := h
        have hskip : heard (l :: ls) = heard ls := by
          cases l <;> first | rfl | cases hl
        rw [herrors, hresult, List.cons_append, List.singleton_append, heard.eq_def]
        simp only [List.head?_cons, Option.any_some, hl, if_true, hskip]
        rfl
    | finalize msg => rfl
    | queryContractId msg =>
      simp only [mainLog, dispatchPluginCallsLog, handleQueryContractIdLog]
      split <;> rfl
    | queryContractUi msg =>
      simp only [mainLog, dispatchPluginCallsLog, handleQueryContractUiLog]
      split_ifs <;> rfl
    | unhandled message => rfl

end Lines

section Transcript
variable (sdk : Sdk) (calls : List LoggedCall) (memory : StakedaoParameters)

theorem quiet_answers : Quiet ((logger sdk).answers calls memory).flatten := by
  induction calls generalizing memory with
  | nil => rfl
  | cons call calls ih => exact (quiet_mainLog call).append (ih _)

theorem heard_answers : heard ((logger sdk).answers calls memory).flatten =
    received sdk calls memory := by
  induction calls generalizing memory with
  | nil => rfl
  | cons call calls ih =>
    have hrest := ih ((plugin sdk).next call.arg0 memory)
    have hquiet := quiet_answers sdk calls ((plugin sdk).next call.arg0 memory)
    have hstep : heard (mainLog sdk memory call ++ _) = _ := heard_mainLog call hquiet
    rw [hrest] at hstep
    exact hstep

/-- In a debug build no call of `PRINTF` leaves its memory, and one reader finds in
the text of any run each calldata word in order, with its offset and its answer. -/
theorem printed_readable :
    ∃ read : List UInt8 → List Received, ∀ (sdk : Sdk) (calls : List LoggedCall)
      (memory : StakedaoParameters),
      (printed sdk calls memory).fault = none ∧
        read (printed sdk calls memory).out = received sdk calls memory := by
  have hinj : Function.Injective fun ls : List Line => ls.flatMap Line.text :=
    fun _ _ => lines_inj
  refine ⟨fun out => heard (Function.invFun (fun ls : List Line => ls.flatMap Line.text) out), ?_⟩
  intro sdk calls memory
  have hprinted := printLines_eq ((logger sdk).answers calls memory).flatten
  have hread := Function.leftInverse_invFun hinj ((logger sdk).answers calls memory).flatten
  rw [printed, hprinted]
  refine ⟨rfl, ?_⟩
  simp only [Printed.done]
  rw [hread]
  exact heard_answers sdk calls memory

end Transcript
end StakedaoPlugin.Debug
