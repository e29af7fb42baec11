import StakedaoPlugin.Lib.Simulation
import StakedaoPlugin.Screens

/-! `main`, and what a sequence of its calls has told the plugin, in whatever
order they come: the operation, the words and the contracts that were looked up. -/
namespace StakedaoPlugin
open CMemory CursorParser History Simulation

attribute [ext] StakedaoParameters

/-- What the Ethereum app asks of the plugin. -/
inductive LibCall where
  | checkPresence
  | message (call : PluginCall)

/-- How `main` comes to its end. -/
inductive Exit where
  | startedEthereum
  | libEnd (call : LibCall)

section Main
variable (sdk : Sdk)

/-- Without an argument the plugin was started from the dashboard. -/
def main (arg0 : Option LibCall) (context : StakedaoParameters) :
    Outcome (Exit × StakedaoParameters) :=
  match arg0 with
  | none => .returned (.startedEthereum, context)
  | some .checkPresence => .returned (.libEnd .checkPresence, context)
  | some (.message call) =>
    (dispatchPluginCalls sdk call context).map fun p => (.libEnd (.message p.1), p.2)

/-- The plugin as a machine: its memory is the context that the app keeps for it. -/
def plugin : Mealy (Option LibCall) (Outcome Exit) StakedaoParameters where
  next arg0 context := (main sdk arg0 context).state.2
  answer arg0 context := (main sdk arg0 context).map Prod.fst

end Main

instance (sdk : Sdk) (msg : EthPluginInitContract) : Decidable (Supported sdk msg) :=
  inferInstanceAs (Decidable (_ ∧ _))

/-- What is known about the transaction to sign. -/
structure Signing where
  operation : StakedaoSelector
  words : List Word
  destinations : List Address
deriving DecidableEq

namespace Signing

def begin (msg : EthPluginInitContract) : Signing :=
  ⟨chosen msg.selector msg.txContent.destination, [], []⟩

/-- An operation without arguments refuses every word. -/
def push (w : Word) (t : Signing) : Signing :=
  if headWords t.operation = 0 then t else { t with words := t.words ++ [w] }

def look (destination : Address) (t : Signing) : Signing :=
  { t with destinations := t.destinations ++ [destination] }

def lookName (f : NameField) (destination : Address) (name : Ticker) : Ticker :=
  (f.entryName destination).getD name

def lookDecimals (destination : Address) (decimals : UInt8) : UInt8 :=
  ((strategyAt destination).map (·.decimals)).getD decimals

/-- A name is that of the last contract with an entry, and so are the decimals. -/
def name (t : Signing) (f : NameField) : Ticker :=
  History.run (lookName f) t.destinations (Vector.replicate 16 0)

def decimals (t : Signing) : UInt8 :=
  History.run lookDecimals t.destinations (initialContext t.operation).decimals

/-- The field that the next word is taken for. -/
def cursor (t : Signing) : UInt8 :=
  ((advance^[t.words.length] (paramCases t.operation)).head?.map Case.field).getD
    (initialContext t.operation).nextParam

def context (sdk : Sdk) (t : Signing) : StakedaoParameters :=
  { delivered sdk t.operation t.words with
    strategy := t.name .strategy
    want := t.name .want
    vault := t.name .vault
    decimals := t.decimals
    nextParam := t.cursor }

/-- One call, as far as it tells something about the transaction. -/
def next (sdk : Sdk) (arg0 : Option LibCall) (t : Option Signing) : Option Signing :=
  match arg0 with
  | some (.message (.initContract msg)) =>
    if Supported sdk msg then some (begin msg) else t
  | some (.message (.provideParameter msg)) => t.map (push msg.parameter)
  | some (.message (.queryContractUi msg)) => t.map (look msg.txContent.destination)
  | _ => t

end Signing

section Represents
variable (sdk : Sdk)

/-- The context holds what is known, and some address in the slot that the
lookups share with an argument. -/
def Represents (c : StakedaoParameters) (t : Signing) : Prop :=
  c = { t.context sdk with address := c.address }

variable {sdk} {c : StakedaoParameters} {t : Signing}

theorem context_begin (msg : EthPluginInitContract) :
    (Signing.begin msg).context sdk =
      initialContext (chosen msg.selector msg.txContent.destination) := by
  have hcursor : (Signing.begin msg).cursor =
      (initialContext (chosen msg.selector msg.txContent.destination)).nextParam := by
    simp only [Signing.cursor, Signing.begin, List.length_nil, Function.iterate_zero, id]
    cases hc : paramCases (chosen msg.selector msg.txContent.destination) with
    | nil => rfl
    | cons d rest => exact (initialContext_head hc).symm
  simp only [Signing.context, hcursor]
  rfl

/-- The cursor is at what is left of the operation's chain. -/
theorem cursor_eq (h : headWords t.operation ≠ 0) :
    ∃ d rest, advance^[t.words.length] (paramCases t.operation) = d :: rest ∧
      d :: rest <:+ paramCases t.operation ∧ t.cursor = d.field := by
  obtain ⟨_, -, hon⟩ := provideParameters_initial referenceSdk t.operation t.words h
  obtain ⟨d, rest, hadv, hsuf, -⟩ := hon.nextParam
  refine ⟨d, rest, hadv, hsuf, ?_⟩
  simp only [Signing.cursor, hadv, List.head?_cons, Option.map_some, Option.getD_some]

theorem represents_provideParameter (hc : Represents sdk c t) (msg : EthPluginProvideParameter) :
    Represents sdk (handleProvideParameter sdk msg c).2 (t.push msg.parameter) := by
  have hindex : c.selectorIndex = t.operation.toIndex := by
    rw [hc]
    exact delivered_selectorIndex sdk t.operation t.words
  by_cases h0 : headWords t.operation = 0
  · rw [handleProvideParameter_noParams sdk t.operation c msg h0 hindex, Signing.push, if_pos h0]
    exact hc
  · obtain ⟨d, rest, hadv, hsuf, hcursor⟩ := cursor_eq h0
    obtain ⟨e, rest', hnext, hstep⟩ := step_chain (paramCases_chain t.operation) hsuf
    have hfield : c.nextParam = d.field := by
      rw [hc]
      exact hcursor
    have hcursor' : (t.push msg.parameter).cursor = e.field := by
      rw [Signing.push, if_neg h0]
      simp only [Signing.cursor, List.length_append, List.length_singleton,
        Function.iterate_succ_apply', hadv, hnext, List.head?_cons, Option.map_some,
        Option.getD_some]
    have hdelivered : delivered sdk t.operation (t.words ++ [msg.parameter]) =
        d.act.apply sdk msg.parameter (delivered sdk t.operation t.words) := by
      have hacts := map_advance_iterate Case.act t.words.length (paramCases t.operation)
      rw [hadv] at hacts
      exact deliver_concat _ _ _ _ _ hacts.symm
    rw [handleProvideParameter_eq sdk t.operation c msg hindex, switchNextParam, hfield, hstep]
    simp only [Represents, Signing.context, hcursor']
    rw [Signing.push, if_neg h0]
    simp only [hdelivered]
    rw [hc]
    cases d.act <;> rfl

theorem Signing.name_look (t : Signing) (destination : Address) (f : NameField) :
    (t.look destination).name f = lookName f destination (t.name f) :=
  run_concat (lookName f) t.destinations destination _

theorem Signing.decimals_look (t : Signing) (destination : Address) :
    (t.look destination).decimals = lookDecimals destination t.decimals :=
  run_concat lookDecimals t.destinations destination _

theorem represents_refresh (hc : Represents sdk c t) (destination : Address) :
    Represents sdk (refresh c destination) (t.look destination) := by
  have hname (f : NameField) :
      f.read (refresh c destination) = (t.look destination).name f := by
    rw [NameField.read_refresh, Signing.name_look, Signing.lookName]
    congr 1
    rw [hc]
    cases f <;> rfl
  have hdecimals : (refresh c destination).decimals = (t.look destination).decimals := by
    rw [refresh_eq, Signing.decimals_look, Signing.lookDecimals, hc]
    rfl
  have hsame := sameCall_refresh c destination
  unfold Represents
  generalize refresh c destination = r at hname hdecimals hsame ⊢
  refine StakedaoParameters.ext ?_ ?_ rfl ?_ ?_ ?_ ?_ hdecimals ?_ ?_
  · rw [hsame.amount, hc]
    rfl
  · rw [hsame.minAmount, hc]
    rfl
  · exact hname .strategy
  · exact hname .want
  · exact hname .vault
  · rw [hsame.pid, hc]
    rfl
  · rw [hsame.nextParam, hc]
    rfl
  · rw [hsame.selectorIndex, hc]
    rfl

theorem represents_begin (msg : EthPluginInitContract) (h : Supported sdk msg) :
    Represents sdk (handleInitContract sdk msg c).2 (Signing.begin msg) := by
  rw [handleInitContract_supported sdk msg c h, Represents, context_begin]

/-- What is known, if an operation was accepted. -/
def Known (sdk : Sdk) (c : StakedaoParameters) (t : Option Signing) : Prop :=
  ∀ s, t = some s → Represents sdk c s

/-- Every call of `main` keeps what the context represents. -/
theorem known_next {t : Option Signing} (hc : Known sdk c t) (arg0 : Option LibCall) :
    Known sdk ((plugin sdk).next arg0 c) (Signing.next sdk arg0 t) := by
  cases arg0 with
  | none => exact hc
  | some call =>
    cases call with
    | checkPresence => exact hc
    | message call =>
      cases call with
      | initContract msg =>
        intro s hs
        simp only [Signing.next] at hs
        split_ifs at hs with h
        · obtain rfl := Option.some.inj hs
          exact represents_begin msg h
        · have hsame := (handleInitContract_unsupported sdk msg c h).2
          have hrep := hc s hs
          rw [← hsame] at hrep
          exact hrep
      | provideParameter msg =>
        intro s hs
        obtain ⟨u, hu, rfl⟩ := Option.map_eq_some_iff.mp hs
        exact represents_provideParameter (hc u hu) msg
      | finalize msg => exact hc
      | queryContractId msg =>
        intro s hs
        have hsame := handleQueryContractId_context c msg
        have hrep := hc s hs
        rw [← hsame] at hrep
        exact hrep
      | queryContractUi msg =>
        intro s hs
        obtain ⟨u, hu, rfl⟩ := Option.map_eq_some_iff.mp hs
        have hcontext : (plugin sdk).next (some (.message (.queryContractUi msg))) c =
            refresh c msg.txContent.destination := by
          simp only [plugin, main, dispatchPluginCalls, Outcome.state_map]
          exact handleQueryContractUi_context sdk msg c
        rw [hcontext]
        exact represents_refresh (hc u hu) msg.txContent.destination
      | unhandled message => exact hc

/-- What a run has made known holds of the memory it leaves. -/
theorem represents_run {calls : List (Option LibCall)} {t : Signing}
    (ht : History.run (Signing.next sdk) calls none = some t) (memory : StakedaoParameters) :
    Represents sdk (History.run (plugin sdk).next calls memory) t := by
  have hnone : Known sdk memory none := by
    intro s hs
    cases hs
  have hrun : Known sdk (History.run (plugin sdk).next calls memory)
      (History.run (Signing.next sdk) calls none) :=
    run_relation _ _ (Known sdk) (fun arg0 c s hc => known_next hc arg0) calls hnone
  exact hrun t ht

end Represents
end StakedaoPlugin
