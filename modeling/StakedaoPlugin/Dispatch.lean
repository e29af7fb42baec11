import StakedaoPlugin.InitContract
import StakedaoPlugin.Lib.History
import StakedaoPlugin.Lookup
import StakedaoPlugin.ParameterChain
import StakedaoPlugin.Queries

/-! `dispatch_plugin_calls`, and the runs of the plugin for one transaction: an
init call, the calldata words, then queries and finalize calls in any order. -/
namespace StakedaoPlugin
open CMemory History

/-- The messages of `dispatch_plugin_calls`, with their parameters. -/
inductive PluginCall where
  | initContract (msg : EthPluginInitContract)
  | provideParameter (msg : EthPluginProvideParameter)
  | finalize (msg : EthPluginFinalize)
  | queryContractId (msg : EthQueryContractID)
  | queryContractUi (msg : EthQueryContractUI)
  | unhandled (message : Int)

/-- The calls that present a parsed transaction. -/
inductive Query where
  | finalize (msg : EthPluginFinalize)
  | id (msg : EthQueryContractID)
  | ui (msg : EthQueryContractUI)

def Query.call : Query → PluginCall
  | finalize msg => .finalize msg
  | id msg => .queryContractId msg
  | ui msg => .queryContractUi msg

def Query.About (tx : TxContent) : Query → Prop
  | ui msg => msg.txContent = tx
  | _ => True

section Dispatch
variable (sdk : Sdk)

def dispatchPluginCalls (call : PluginCall) (context : StakedaoParameters) :
    Outcome (PluginCall × StakedaoParameters) :=
  match call with
  | .initContract msg =>
    let (msg, context) := handleInitContract sdk msg context
    .returned (.initContract msg, context)
  | .provideParameter msg =>
    let (msg, context) := handleProvideParameter sdk msg context
    .returned (.provideParameter msg, context)
  | .finalize msg =>
    let (msg, context) := handleFinalize msg context
    .returned (.finalize msg, context)
  | .queryContractId msg =>
    let (msg, context) := handleQueryContractId msg context
    .returned (.queryContractId msg, context)
  | .queryContractUi msg =>
    (handleQueryContractUi sdk msg context).map fun p => (.queryContractUi p.1, p.2)
  | .unhandled message => .returned (.unhandled message, context)

/-- The context after one presenting call. -/
def present (q : Query) (context : StakedaoParameters) : StakedaoParameters :=
  (dispatchPluginCalls sdk q.call context).state.2

/-- The context after an accepted init call and accepted calldata words. -/
def parsed (msg : EthPluginInitContract) (context : StakedaoParameters) (ws : List Word) :
    Option StakedaoParameters :=
  if (handleInitContract sdk msg context).1.result = .ok then
    provideParameters sdk (handleInitContract sdk msg context).2 ws
  else none

/-- A presenting call leaves the context, or refreshes the destination and the names. -/
theorem present_eq (q : Query) (context : StakedaoParameters) :
    present sdk q context =
      match q with
      | .ui msg => refresh context msg.txContent.destination
      | _ => context := by
  cases q with
  | finalize msg => exact handleFinalize_context context msg
  | id msg => exact handleQueryContractId_context context msg
  | ui msg =>
    simp only [present, Query.call, dispatchPluginCalls, Outcome.state_map]
    exact handleQueryContractUi_context sdk msg context

theorem parsed_eq (msg : EthPluginInitContract) (context : StakedaoParameters) (ws : List Word)
    (h : Supported sdk msg) :
    parsed sdk msg context ws =
      provideParameters sdk (initialContext (chosen msg.selector msg.txContent.destination)) ws := by
  simp [parsed, handleInitContract_supported sdk msg context h]

theorem supported_of_parsed {msg : EthPluginInitContract} {context c : StakedaoParameters}
    {ws : List Word} (h : parsed sdk msg context ws = some c) : Supported sdk msg := by
  by_contra hn
  have hr := (handleInitContract_unsupported sdk msg context hn).1
  simp [parsed, hr] at h

theorem exists_parsed {msg : EthPluginInitContract} (context : StakedaoParameters)
    (h : Supported sdk msg) (hw : headWords (chosen msg.selector msg.txContent.destination) ≠ 0)
    (ws : List Word) : ∃ c, parsed sdk msg context ws = some c := by
  obtain ⟨c, hc, -⟩ := provideParameters_initial sdk _ ws hw
  exact ⟨c, (parsed_eq sdk msg context ws h).trans hc⟩

end Dispatch

section Runs
variable (context : StakedaoParameters)

theorem sameCall_present (sdk : Sdk) (q : Query) : SameCall context (present sdk q context) := by
  rw [present_eq]
  cases q with
  | ui msg => exact sameCall_refresh context _
  | finalize msg => exact ⟨rfl, rfl, rfl, rfl, rfl⟩
  | id msg => exact ⟨rfl, rfl, rfl, rfl, rfl⟩

/-- What each of its lookups keeps is kept while a call is presented. -/
theorem run_present_invariant (sdk : Sdk) (P : StakedaoParameters → Prop) (qs : List Query)
    (hc : P context)
    (hrefresh : ∀ ui, .ui ui ∈ qs → ∀ c, P c → P (refresh c ui.txContent.destination)) :
    P (run (present sdk) qs context) := by
  refine run_invariant (present sdk) P qs context hc ?_
  intro q hq c h
  rw [present_eq]
  cases q with
  | ui msg => exact hrefresh msg hq c h
  | finalize msg => exact h
  | id msg => exact h

theorem sameCall_run (sdk : Sdk) (qs : List Query) :
    SameCall context (run (present sdk) qs context) :=
  run_present_invariant context sdk (SameCall context) qs ⟨rfl, rfl, rfl, rfl, rfl⟩
    (fun _ _ c hc => hc.trans (sameCall_refresh c _))

/-- Queries about one transaction are not seen by its next screen. -/
theorem refresh_run_present (sdk : Sdk) (tx : TxContent) (qs : List Query)
    (hqs : ∀ q ∈ qs, q.About tx) :
    refresh (run (present sdk) qs context) tx.destination = refresh context tx.destination := by
  refine refresh_run (present sdk) (fun c => refresh c tx.destination)
    (fun c => refresh_refresh c tx.destination) qs ?_ context
  intro q hq c
  rw [present_eq]
  cases q with
  | ui msg =>
    have he : msg.txContent = tx := hqs _ hq
    exact Or.inr (by simp only [he])
  | finalize msg => exact Or.inl rfl
  | id msg => exact Or.inl rfl

theorem slots_parsed (sdk : Sdk) {msg : EthPluginInitContract} {context c : StakedaoParameters}
    {ws : List Word} (h : parsed sdk msg context ws = some c) :
    c = { delivered sdk (chosen msg.selector msg.txContent.destination) ws with
      nextParam := c.nextParam } := by
  rw [parsed_eq sdk msg context ws (supported_of_parsed sdk h)] at h
  exact eq_delivered_of_provideParameters sdk _ ws h

/-- The calldata leaves the names, the decimals and the operation of the init call. -/
theorem untouched_parsed (sdk : Sdk) {msg : EthPluginInitContract}
    {context c : StakedaoParameters} {ws : List Word} (h : parsed sdk msg context ws = some c) :
    untouched c = untouched (initialContext (chosen msg.selector msg.txContent.destination)) := by
  rw [slots_parsed sdk h]
  exact delivered_untouched sdk _ ws

theorem selectorIndex_parsed (sdk : Sdk) {msg : EthPluginInitContract}
    {context c : StakedaoParameters} {ws : List Word} (h : parsed sdk msg context ws = some c) :
    c.selectorIndex = (chosen msg.selector msg.txContent.destination).toIndex :=
  congrArg (fun t => t.2.2.2.2) (untouched_parsed sdk h)

theorem decimals_parsed (sdk : Sdk) {msg : EthPluginInitContract}
    {context c : StakedaoParameters} {ws : List Word} (h : parsed sdk msg context ws = some c) :
    c.decimals = (initialContext (chosen msg.selector msg.txContent.destination)).decimals :=
  congrArg (fun t => t.2.2.2.1) (untouched_parsed sdk h)

theorem selectorIndex_run (sdk : Sdk) {msg : EthPluginInitContract}
    {context c : StakedaoParameters} {ws : List Word} (h : parsed sdk msg context ws = some c)
    (qs : List Query) :
    (run (present sdk) qs c).selectorIndex =
      (chosen msg.selector msg.txContent.destination).toIndex :=
  (sameCall_run c sdk qs).selectorIndex.trans (selectorIndex_parsed sdk h)

/-- Only the two decimals of the source occur: none, or 18. -/
theorem decimals_run_le (sdk : Sdk) {msg : EthPluginInitContract}
    {context c : StakedaoParameters} {ws : List Word} (h : parsed sdk msg context ws = some c)
    (qs : List Query) : (run (present sdk) qs c).decimals.toNat ≤ 18 := by
  have hinit : c.decimals.toNat ≤ 18 := by
    simp only [decimals_parsed sdk h, initialContext]
    split_ifs <;> decide
  exact run_present_invariant c sdk (fun d => d.decimals.toNat ≤ 18) qs hinit
    (fun ui _ d hd => decimals_refresh_le d ui.txContent.destination hd)

end Runs

theorem parsed_initCall (selector : Selector) (destination : Address)
    (context : StakedaoParameters) (ws : List Word) :
    parsed referenceSdk (initCall selector destination) context ws =
      provideParameters referenceSdk (initialContext (chosen selector destination)) ws :=
  parsed_eq referenceSdk _ context ws (supported_initCall selector destination)

end StakedaoPlugin
