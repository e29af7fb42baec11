import StakedaoPlugin.Replies

/-! The order in which words and screens come: the plugin's answers depend on the
words among themselves and on the contracts looked up among themselves, not on
how the two are mixed, and not on what was in memory before. -/
namespace StakedaoPlugin
open CMemory History Simulation

section Unseen
variable {sdk : Sdk} {c d : StakedaoParameters}

/-- Contexts that differ at most in the slot that each query overwrites before it reads it. -/
def SameButAddress (c d : StakedaoParameters) : Prop := c = { d with address := c.address }

theorem sameButAddress_refl (c : StakedaoParameters) : SameButAddress c c := rfl

theorem SameButAddress.refresh_eq (h : SameButAddress c d) (destination : Address) :
    refresh c destination = refresh d destination := by
  rw [StakedaoPlugin.refresh_eq, StakedaoPlugin.refresh_eq d, h]

theorem SameButAddress.selectorIndex (h : SameButAddress c d) :
    c.selectorIndex = d.selectorIndex := by
  rw [h]

theorem sameButAddress_apply (h : SameButAddress c d) (a : Store) (w : Word) (next : UInt8) :
    SameButAddress { a.apply sdk w c with nextParam := next }
      { a.apply sdk w d with nextParam := next } := by
  unfold SameButAddress at h ⊢
  rw [h]
  cases a <;> rfl

/-- A word is taken or refused alike, and stored alike. -/
theorem sameButAddress_provideParameter (h : SameButAddress c d)
    (msg : EthPluginProvideParameter) :
    (handleProvideParameter sdk msg c).1 = (handleProvideParameter sdk msg d).1 ∧
      SameButAddress (handleProvideParameter sdk msg c).2 (handleProvideParameter sdk msg d).2 := by
  have hindex := h.selectorIndex
  cases hs : StakedaoSelector.ofIndex? d.selectorIndex with
  | none =>
    simp only [handleProvideParameter, hindex, hs, true_and]
    exact h
  | some s =>
    have hd : d.selectorIndex = s.toIndex := (StakedaoSelector.toIndex_of_ofIndex? hs).symm
    have hnext : c.nextParam = d.nextParam := by rw [h]
    rw [handleProvideParameter_eq sdk s c msg (hindex.trans hd),
      handleProvideParameter_eq sdk s d msg hd, switchNextParam, switchNextParam, hnext]
    cases CursorParser.step (paramCases s) d.nextParam with
    | none => exact ⟨rfl, h⟩
    | some p => exact ⟨rfl, sameButAddress_apply h p.1 msg.parameter p.2⟩

theorem sameButAddress_initContract (h : SameButAddress c d) (msg : EthPluginInitContract) :
    (handleInitContract sdk msg c).1 = (handleInitContract sdk msg d).1 ∧
      SameButAddress (handleInitContract sdk msg c).2 (handleInitContract sdk msg d).2 := by
  refine ⟨(handleInitContract_result msg).trans (handleInitContract_result msg).symm, ?_⟩
  by_cases hs : Supported sdk msg
  · rw [handleInitContract_supported sdk msg c hs, handleInitContract_supported sdk msg d hs]
    exact sameButAddress_refl _
  · rw [(handleInitContract_unsupported sdk msg c hs).2,
      (handleInitContract_unsupported sdk msg d hs).2]
    exact h

theorem sameButAddress_queryContractUi (h : SameButAddress c d) (msg : EthQueryContractUI) :
    handleQueryContractUi sdk msg c = handleQueryContractUi sdk msg d := by
  rw [handleQueryContractUi_eq, handleQueryContractUi_eq, h.refresh_eq]

/-- No sequence of calls brings the difference to light. -/
theorem sameButAddress_simulates (sdk : Sdk) :
    Simulates (plugin sdk) (plugin sdk) SameButAddress Eq where
  next := by
    intro arg0 c d h
    rcases arg0 with _ | _ | call
    · exact h
    · exact h
    · cases call with
      | initContract msg => exact (sameButAddress_initContract h msg).2
      | provideParameter msg => exact (sameButAddress_provideParameter h msg).2
      | finalize msg => exact h
      | queryContractId msg =>
        have hc : (plugin sdk).next (some (.message (.queryContractId msg))) c = c :=
          handleQueryContractId_context c msg
        have hd : (plugin sdk).next (some (.message (.queryContractId msg))) d = d :=
          handleQueryContractId_context d msg
        rw [hc, hd]
        exact h
      | queryContractUi msg =>
        simp only [plugin, main, dispatchPluginCalls, sameButAddress_queryContractUi h msg]
        exact sameButAddress_refl _
      | unhandled message => exact h
  answer := by
    intro arg0 c d h
    rcases arg0 with _ | _ | call
    · rfl
    · rfl
    · cases call with
      | initContract msg =>
        exact congrArg (fun m => Outcome.returned (answered (.initContract m)))
          (sameButAddress_initContract h msg).1
      | provideParameter msg =>
        exact congrArg (fun m => Outcome.returned (answered (.provideParameter m)))
          (sameButAddress_provideParameter h msg).1
      | finalize msg =>
        simp only [plugin, main, dispatchPluginCalls, handleFinalize, h.selectorIndex,
          Outcome.map_returned]
      | queryContractId msg =>
        have hid : (handleQueryContractId msg c).1 = (handleQueryContractId msg d).1 := by
          simp only [handleQueryContractId, h.selectorIndex]
          split <;> rfl
        exact congrArg (fun m => Outcome.returned (answered (.queryContractId m))) hid
      | queryContractUi msg =>
        simp only [plugin, main, dispatchPluginCalls, sameButAddress_queryContractUi h msg]
      | unhandled message => rfl

end Unseen

section Mixed
variable {sdk : Sdk}

def wordOfCall : Option LibCall → Option Word
  | some (.message (.provideParameter msg)) => some msg.parameter
  | _ => none

def destinationOfCall : Option LibCall → Option Address
  | some (.message (.queryContractUi msg)) => some msg.txContent.destination
  | _ => none

/-- None of the calls makes the plugin accept another operation. -/
def Continues (sdk : Sdk) (calls : List (Option LibCall)) : Prop :=
  ∀ msg, some (.message (.initContract msg)) ∈ calls → ¬ Supported sdk msg

/-- What is known after further calls: the words in their order and the contracts in theirs. -/
def Signing.after (calls : List (Option LibCall)) (t : Signing) : Signing where
  operation := t.operation
  words := if headWords t.operation = 0 then t.words else t.words ++ calls.filterMap wordOfCall
  destinations := t.destinations ++ calls.filterMap destinationOfCall

theorem Signing.after_silent (t : Signing) {arg0 : Option LibCall} (hw : wordOfCall arg0 = none)
    (hd : destinationOfCall arg0 = none) : t.after [arg0] = t := by
  simp only [Signing.after, List.filterMap_cons, hw, hd, List.filterMap_nil, List.append_nil,
    ite_self]

theorem Signing.next_eq (t : Signing) (arg0 : Option LibCall) (h : Continues sdk [arg0]) :
    Signing.next sdk arg0 (some t) = some (t.after [arg0]) := by
  rcases arg0 with _ | _ | call
  · rw [Signing.after_silent t rfl rfl]
    rfl
  · rw [Signing.after_silent t rfl rfl]
    rfl
  · cases call with
    | initContract msg =>
      have hn : ¬ Supported sdk msg := h msg (by simp)
      rw [Signing.after_silent t rfl rfl]
      exact if_neg hn
    | provideParameter msg =>
      simp only [Signing.next, Option.map_some, Signing.push, Signing.after, wordOfCall,
        destinationOfCall, List.filterMap_cons, List.filterMap_nil, List.append_nil]
      split_ifs <;> rfl
    | queryContractUi msg =>
      simp only [Signing.next, Option.map_some, Signing.look, Signing.after, wordOfCall,
        destinationOfCall, List.filterMap_cons, List.filterMap_nil, List.append_nil, ite_self]
    | finalize msg =>
      rw [Signing.after_silent t rfl rfl]
      rfl
    | queryContractId msg =>
      rw [Signing.after_silent t rfl rfl]
      rfl
    | unhandled message =>
      rw [Signing.after_silent t rfl rfl]
      rfl

theorem Signing.after_cons (t : Signing) (arg0 : Option LibCall) (calls : List (Option LibCall)) :
    (t.after [arg0]).after calls = t.after (arg0 :: calls) := by
  simp only [Signing.after]
  split_ifs <;> simp [List.append_assoc, ← List.filterMap_append]

theorem Signing.run_next (calls : List (Option LibCall)) (t : Signing)
    (h : Continues sdk calls) : run (Signing.next sdk) calls (some t) = some (t.after calls) := by
  induction calls generalizing t with
  | nil => simp [run, Signing.after]
  | cons arg0 calls ih =>
    have hhead : Continues sdk [arg0] := by
      intro msg hmsg
      exact h msg (by simp_all)
    have htail : Continues sdk calls := fun msg hmsg => h msg (List.mem_cons_of_mem _ hmsg)
    have hrun := ih (t.after [arg0]) htail
    rw [Signing.after_cons] at hrun
    rw [← hrun, ← Signing.next_eq t arg0 hhead]
    rfl

theorem sameButAddress_of_represents {c d : StakedaoParameters} {t : Signing}
    (hc : Represents sdk c t) (hd : Represents sdk d t) : SameButAddress c d := by
  unfold SameButAddress
  rw [hd]
  exact hc

/-- After an accepted operation, two sequences of calls with the same words and
the same contracts looked up, however these are mixed with each other and with
other calls, and over any two memories, cannot be told apart by what follows. -/
theorem interleaving_unseen {msg : EthPluginInitContract} (hmsg : Supported sdk msg)
    {calls calls' : List (Option LibCall)} (h : Continues sdk calls) (h' : Continues sdk calls')
    (hwords : calls.filterMap wordOfCall = calls'.filterMap wordOfCall)
    (hdestinations : calls.filterMap destinationOfCall = calls'.filterMap destinationOfCall)
    (memory memory' : StakedaoParameters) (later : List (Option LibCall)) :
    (plugin sdk).answers later
        (run (plugin sdk).next (some (.message (.initContract msg)) :: calls) memory) =
      (plugin sdk).answers later
        (run (plugin sdk).next (some (.message (.initContract msg)) :: calls') memory') := by
  have hknown (cs : List (Option LibCall)) (hcs : Continues sdk cs) :
      run (Signing.next sdk) (some (.message (.initContract msg)) :: cs) none =
        some ((Signing.begin msg).after cs) := by
    have hbegin : Signing.next sdk (some (.message (.initContract msg))) none =
        some (Signing.begin msg) := if_pos hmsg
    rw [← Signing.run_next cs (Signing.begin msg) hcs, ← hbegin]
    rfl
  have hsame : (Signing.begin msg).after calls' = (Signing.begin msg).after calls := by
    simp only [Signing.after, hwords, hdestinations]
  have hc := represents_run (hknown calls h) memory
  have hd := represents_run (hknown calls' h') memory'
  rw [hsame] at hd
  exact (sameButAddress_simulates sdk).equivalent (sameButAddress_of_represents hc hd) later

end Mixed

/-- The amount screen is asked for before the amount is there, or behind it, and
over two memories. -/
theorem interleaving_unseen_deposit :
    (plugin referenceSdk).answers [depositScreen 0, depositScreen 2]
        (run (plugin referenceSdk).next
          [some (.message (.initContract depositInit)), depositScreen 2, depositWord] .zero) =
      (plugin referenceSdk).answers [depositScreen 0, depositScreen 2]
        (run (plugin referenceSdk).next
          [some (.message (.initContract depositInit)), depositWord, none, depositScreen 2]
          addedLiquidity) := by
  have hcalls : Continues referenceSdk [depositScreen 2, depositWord] := by
    intro msg hmsg
    simp [depositScreen, depositWord] at hmsg
  have hcalls' : Continues referenceSdk [depositWord, none, depositScreen 2] := by
    intro msg hmsg
    simp [depositScreen, depositWord] at hmsg
  have hinit : Supported referenceSdk depositInit := supported_initCall _ _
  exact interleaving_unseen hinit hcalls hcalls'
    (by simp [List.filterMap_cons, depositScreen, depositWord, wordOfCall])
    (by simp [List.filterMap_cons, depositScreen, depositWord, destinationOfCall]) _ _ _

end StakedaoPlugin
