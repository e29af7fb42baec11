import StakedaoPlugin.Disclosure
import StakedaoPlugin.Interleaving

/-! Operations that the plugin lets nobody tell apart: in whatever order it is
called, it answers alike for both. -/
namespace StakedaoPlugin
open CMemory DecimalText History Simulation

/-- What there is to see of an operation. -/
structure Seen where
  takesWords : Bool
  screens : List Screen
  version : String
  numScreens : Nat
  amountWord : Option (Bool × Nat)
deriving DecidableEq

/-- The word of the amount counts only where there is a screen for it. -/
def seen (s : StakedaoSelector) : Seen where
  takesWords := decide (headWords s ≠ 0)
  screens := screens s
  version := versionText s
  numScreens := numScreens s
  amountWord := if ShowsAmount s then some (copiesTrailing s, amountPosition s) else none

/-- The same words and the same contracts were told of operations that look alike. -/
structure SameSeen (t u : Signing) : Prop where
  operation : seen t.operation = seen u.operation
  words : t.words = u.words
  destinations : t.destinations = u.destinations

section SameSeen
variable {t u : Signing}

theorem SameSeen.screens (h : SameSeen t u) : screens t.operation = screens u.operation :=
  congrArg Seen.screens h.operation

theorem SameSeen.takesWords (h : SameSeen t u) :
    headWords t.operation = 0 ↔ headWords u.operation = 0 := by
  have htakes := congrArg Seen.takesWords h.operation
  exact not_iff_not.mp (decide_eq_decide.mp htakes)

theorem SameSeen.name (h : SameSeen t u) (f : NameField) : t.name f = u.name f := by
  rw [Signing.name, h.destinations]
  rfl

theorem SameSeen.decimals (h : SameSeen t u) : t.decimals = u.decimals := by
  rw [Signing.decimals, h.destinations, initialContext_decimals, h.screens,
    ← initialContext_decimals]
  rfl

theorem SameSeen.amount (h : SameSeen t u) (ht : ShowsAmount t.operation)
    (hu : ShowsAmount u.operation) : t.amount = u.amount := by
  have hword := congrArg Seen.amountWord h.operation
  simp only [seen, if_pos ht, if_pos hu, Option.some.injEq, Prod.mk.injEq] at hword
  rw [Signing.amount, Signing.amount, hword.1, hword.2, h.words]

/-- Of the identifiers, the one of an NFT is shown on a screen of its own. -/
theorem nftStake_iff (s : StakedaoSelector) : s = .nftStake ↔ ⟨"Id", .identifier⟩ ∈ screens s := by
  cases s <;> decide

theorem SameSeen.identifier (h : SameSeen t u) : t.identifier = u.identifier := by
  have hnft : decide (t.operation = .nftStake) = decide (u.operation = .nftStake) := by
    rw [decide_eq_decide, nftStake_iff, nftStake_iff, h.screens]
  rw [Signing.identifier, Signing.identifier, hnft, h.words]

theorem SameSeen.look (h : SameSeen t u) (destination : Address) :
    SameSeen (t.look destination) (u.look destination) :=
  ⟨h.operation, h.words, by rw [Signing.look, Signing.look, h.destinations]⟩

theorem SameSeen.push (h : SameSeen t u) (w : Word) : SameSeen (t.push w) (u.push w) := by
  unfold Signing.push
  by_cases h0 : headWords t.operation = 0
  · rw [if_pos h0, if_pos (h.takesWords.mp h0)]
    exact h
  · rw [if_neg h0, if_neg (fun hu => h0 (h.takesWords.mpr hu))]
    exact ⟨h.operation, by rw [h.words], h.destinations⟩

/-- Each call tells the same of both. -/
theorem SameSeen.next (sdk : Sdk) (h : SameSeen t u) (arg0 : Option LibCall) :
    ∃ t' u', Signing.next sdk arg0 (some t) = some t' ∧ Signing.next sdk arg0 (some u) = some u' ∧
      SameSeen t' u' := by
  rcases arg0 with _ | _ | call
  · exact ⟨t, u, rfl, rfl, h⟩
  · exact ⟨t, u, rfl, rfl, h⟩
  · cases call with
    | initContract msg =>
      by_cases hs : Supported sdk msg
      · exact ⟨_, _, if_pos hs, if_pos hs, rfl, rfl, rfl⟩
      · exact ⟨t, u, if_neg hs, if_neg hs, h⟩
    | provideParameter msg => exact ⟨_, _, rfl, rfl, h.push msg.parameter⟩
    | finalize msg => exact ⟨t, u, rfl, rfl, h⟩
    | queryContractId msg => exact ⟨t, u, rfl, rfl, h⟩
    | queryContractUi msg => exact ⟨_, _, rfl, rfl, h.look msg.txContent.destination⟩
    | unhandled message => exact ⟨t, u, rfl, rfl, h⟩

end SameSeen

section Answers
variable {sdk : Sdk} {c d : StakedaoParameters} {t u : Signing}

/-- A screen reads nothing that differs, whether or not its text has room. -/
theorem sameIn_of_represents (hc : Represents sdk c t) (hd : Represents sdk d u)
    (h : SameSeen t u) (haddress : c.address = d.address) :
    ∀ screen ∈ screens t.operation, screen.content.SameIn c d := by
  intro screen ht
  have hu : screen ∈ screens u.operation := by rwa [← h.screens]
  obtain ⟨hamountIn, hamount⟩ := screens_amount t.operation screen ht
  obtain ⟨hamountIn', hamount'⟩ := screens_amount u.operation screen hu
  have hread (f : NameField) : f.read c = f.read d := by rw [hc.read, hd.read, h.name]
  have hslot (hs : ShowsAmount t.operation) (hs' : ShowsAmount u.operation) :
      c.amount = d.amount := by
    rw [hc.amount hs, hd.amount hs', h.amount hs hs']
  cases hcontent : screen.content with
  | text x => trivial
  | name f =>
    have hvault : 0 ∈ (NameField.vault.read c).toList := by
      rw [hc.read]
      exact vault_terminated t
    exact cstr_readFrom_congr hread hvault f
  | amountIn f =>
    have hdecimals : c.decimals = d.decimals := by rw [hc.decimals, hd.decimals, h.decimals]
    exact ⟨hslot (hamountIn f hcontent).2 (hamountIn' f hcontent).2, hdecimals, hread f⟩
  | amount ticker => exact hslot (hamount ticker hcontent) (hamount' ticker hcontent)
  | value ticker => trivial
  | identifier =>
    have hpid := screens_identifier t.operation screen ht hcontent
    have hpid' := screens_identifier u.operation screen hu hcontent
    exact (hc.identifier hpid).trans (h.identifier.trans (hd.identifier hpid').symm)
  | contract => exact haddress

theorem handleQueryContractId_eq (hc : Represents sdk c t) (msg : EthQueryContractID) :
    (handleQueryContractId msg c).1 =
      setVersion (versionText t.operation)
        { msg with name := msg.name.strlcpy (literal pluginName) } := by
  simp only [handleQueryContractId, hc.selectorIndex, StakedaoSelector.ofIndex?_toIndex]
  cases t.operation <;> rfl

/-- Contexts in which such operations are told. -/
def SeenAlike (sdk : Sdk) (c d : StakedaoParameters) : Prop :=
  ∃ t u, Represents sdk c t ∧ Represents sdk d u ∧ SameSeen t u

theorem answer_queryContractUi (sdk : Sdk) (ui : EthQueryContractUI) (c : StakedaoParameters) :
    (plugin sdk).answer (some (.message (.queryContractUi ui))) c =
      (showScreen sdk (cleared ui) (refresh c ui.txContent.destination)).map
        fun m => answered (.queryContractUi m) := by
  simp only [plugin, main, dispatchPluginCalls, handleQueryContractUi_eq]
  cases showScreen sdk (cleared ui) (refresh c ui.txContent.destination) <;> rfl

/-- No call brings a difference to light, nor does it make one. -/
theorem seenAlike_simulates (sdk : Sdk) :
    Simulates (plugin sdk) (plugin sdk) (SeenAlike sdk) Eq where
  next := by
    intro arg0 c d h
    obtain ⟨t, u, hc, hd, hsame⟩ := h
    have hknown : Known sdk c (some t) := fun s hs => Option.some.inj hs ▸ hc
    have hknown' : Known sdk d (some u) := fun s hs => Option.some.inj hs ▸ hd
    obtain ⟨t', u', ht, hu, hsame'⟩ := hsame.next sdk arg0
    exact ⟨t', u', known_next hknown arg0 t' ht, known_next hknown' arg0 u' hu, hsame'⟩
  answer := by
    intro arg0 c d h
    obtain ⟨t, u, hc, hd, hsame⟩ := h
    rcases arg0 with _ | _ | call
    · rfl
    · rfl
    · cases call with
      | initContract msg =>
        exact congrArg (fun m => Outcome.returned (answered (.initContract m)))
          ((handleInitContract_result msg).trans (handleInitContract_result msg).symm)
      | provideParameter msg =>
        have hresult : (handleProvideParameter sdk msg c).1 =
            (handleProvideParameter sdk msg d).1 := by
          rw [handleProvideParameter_result hc, handleProvideParameter_result hd]
          simp only [hsame.takesWords]
        exact congrArg (fun m => Outcome.returned (answered (.provideParameter m))) hresult
      | finalize msg =>
        have hnum : numScreens t.operation = numScreens u.operation :=
          congrArg Seen.numScreens hsame.operation
        have hresult : (handleFinalize msg c).1 = (handleFinalize msg d).1 := by
          rw [handleFinalize_answer hc, handleFinalize_answer hd, hnum]
        exact congrArg (fun m => Outcome.returned (answered (.finalize m))) hresult
      | queryContractId msg =>
        have hversion : versionText t.operation = versionText u.operation :=
          congrArg Seen.version hsame.operation
        have hresult : (handleQueryContractId msg c).1 = (handleQueryContractId msg d).1 := by
          rw [handleQueryContractId_eq hc, handleQueryContractId_eq hd, hversion]
        exact congrArg (fun m => Outcome.returned (answered (.queryContractId m))) hresult
      | queryContractUi ui =>
        have hlooked := represents_refresh hc ui.txContent.destination
        have hlooked' := represents_refresh hd ui.txContent.destination
        have hsame' := hsame.look ui.txContent.destination
        have hreads := sameIn_of_represents hlooked hlooked' hsame'
          ((address_refresh c _).trans (address_refresh d _).symm)
        rw [answer_queryContractUi, answer_queryContractUi,
          showScreen_congr sdk (cleared ui) hlooked.selectorIndex hlooked'.selectorIndex
            hsame'.screens hreads]
      | unhandled message => rfl

/-- Nothing is known behind an accepted init call but the operation. -/
theorem represents_initialContext (sdk : Sdk) (s : StakedaoSelector) :
    Represents sdk (initialContext s) ⟨s, [], []⟩ := by
  cases s <;> rfl

end Answers

section Probes

/-- An amount that tells from where on its words are copied. -/
def probeWords : List Word := [wordOf 1, wordOf 2, wordOf 3, wordOf 4]

def probes : List (Option LibCall) :=
  probeWords.map fun w => some (.message (.provideParameter ⟨w, .error⟩))

def probeUi : EthQueryContractUI := uiQuery (callTo passiveStEth.address) 0 120

def probeId : EthQueryContractID :=
  ⟨⟨List.replicate 32 0, false⟩, ⟨List.replicate 32 0, false⟩, .error⟩

/-- What is known behind these words. -/
def probed (s : StakedaoSelector) : Signing := (Signing.mk s [] []).after probes

/-- What the plugin answers there. -/
structure View where
  takesWords : Bool
  numScreens : UInt8
  version : List UInt8
  screens : List (List UInt8 × Option (List UInt8))
deriving DecidableEq

def screenView (t : Signing) (screen : Screen) : List UInt8 × Option (List UInt8) :=
  ((cstr (literal screen.title)).take (probeUi.title.length - 1),
    screen.content.shown referenceSdk (t.look probeUi.txContent.destination) probeUi.txContent
      probeUi.msg.length)

def view (s : StakedaoSelector) : View where
  takesWords := decide (headWords s ≠ 0)
  numScreens := UInt8.ofNat (numScreens s)
  version := (cstr (literal (versionText s))).take (probeId.version.length - 1)
  screens := (screens s).map (screenView (probed s))

theorem mem_all (s : StakedaoSelector) : s ∈ StakedaoSelector.all := by
  cases s <;> decide

/-- The probes show all there is to see. -/
theorem seen_of_view {s s' : StakedaoSelector} (h : view s = view s') : seen s = seen s' := by
  have hall : (StakedaoSelector.all.all fun s => StakedaoSelector.all.all fun s' =>
      decide (view s = view s' → seen s = seen s')) = true := by decide +kernel
  have hs := List.all_eq_true.mp (List.all_eq_true.mp hall s (mem_all s)) s' (mem_all s')
  exact of_decide_eq_true hs h

/-- Two answers that are the same show the same title and the same text. -/
theorem displays_inj {ui : EthQueryContractUI} {title title' : String}
    {text text' : Option (List UInt8)} {o : Outcome EthQueryContractUI}
    (h : Displays ui title text o) (h' : Displays ui title' text' o) :
    (cstr (literal title)).take (ui.title.length - 1) =
        (cstr (literal title')).take (ui.title.length - 1) ∧ text = text' := by
  have hset (title : String) : cstr (setTitle title (cleared ui)).title.bytes =
      (cstr (literal title)).take (ui.title.length - 1) := Buffer.cstr_strlcpy ui.title _
  cases text with
  | none =>
    cases text' with
    | none =>
      have he : setTitle title (cleared ui) = setTitle title' (cleared ui) :=
        Outcome.thrown.inj (h.symm.trans h')
      rw [← hset, ← hset, he]
      exact ⟨rfl, rfl⟩
    | some text' =>
      obtain ⟨m, hm, -⟩ := h'
      cases hm.symm.trans h
  | some text =>
    obtain ⟨m, hm, hfilled⟩ := h
    cases text' with
    | none => cases hm.symm.trans h'
    | some text' =>
      obtain ⟨m', hm', hfilled'⟩ := h'
      obtain rfl : m = m' := Outcome.returned.inj (hm.symm.trans hm')
      rw [← hfilled.title, ← hfilled'.title, ← hfilled.text, ← hfilled'.text]
      exact ⟨rfl, rfl⟩

theorem represents_probed (s : StakedaoSelector) :
    Represents referenceSdk (run (plugin referenceSdk).next probes (initialContext s))
      (probed s) := by
  have hcontinues : Continues referenceSdk probes := by
    intro msg hmsg
    obtain ⟨w, -, hw⟩ := List.mem_map.mp hmsg
    cases hw
  have hknown : Known referenceSdk (initialContext s) (some ⟨s, [], []⟩) :=
    fun t ht => Option.some.inj ht ▸ represents_initialContext referenceSdk s
  have hrun : Known referenceSdk (run (plugin referenceSdk).next probes (initialContext s))
      (run (Signing.next referenceSdk) probes (some ⟨s, [], []⟩)) :=
    run_relation _ _ (Known referenceSdk) (fun arg0 c t hc => known_next hc arg0) probes hknown
  exact hrun (probed s) (Signing.run_next probes ⟨s, [], []⟩ hcontinues)

theorem roomy_probes (s : StakedaoSelector) : Roomy referenceSdk (probed s) probeUi := by
  have hlength : probeUi.msg.length = 120 := length_uiQuery _ _ _
  have hnone : (probed s).destinations = [] := rfl
  refine ⟨msgBuffer_uiQuery _ _ (by omega) (by omega), ?_, ?_, ?_⟩
  · rw [hlength]
    omega
  · rw [hlength]
    decide +kernel
  · rw [hnone]
    decide

theorem answered_inj {call call' : PluginCall} (h : answered call = answered call') :
    call = call' :=
  LibCall.message.inj (Exit.libEnd.inj h)

variable {s s' : StakedaoSelector}

/-- The answers to the probes, where no call tells the two operations apart. -/
theorem view_of_equivalent
    (h : (plugin referenceSdk).Equivalent (initialContext s) (initialContext s')) :
    view s = view s' := by
  have hc := represents_initialContext referenceSdk s
  have hd := represents_initialContext referenceSdk s'
  have hreply (t : Signing) (hc : Represents referenceSdk (initialContext t.operation) t) :=
    agrees_replyMessage referenceSdk_lawful hc
  have hwords : decide (headWords s ≠ 0) = decide (headWords s' ≠ 0) := by
    have hanswer := h.answer (some (.message (.provideParameter ⟨wordOf 1, .error⟩)))
    have hs := hreply ⟨s, [], []⟩ hc (.provideParameter ⟨wordOf 1, .error⟩)
    have hs' := hreply ⟨s', [], []⟩ hd (.provideParameter ⟨wordOf 1, .error⟩)
    have hmsg := answered_inj (Outcome.returned.inj (hs.symm.trans (hanswer.trans hs')))
    have hresult := congrArg EthPluginProvideParameter.result (PluginCall.provideParameter.inj hmsg)
    rw [decide_eq_decide]
    split_ifs at hresult <;> simp_all
  have hnum : UInt8.ofNat (numScreens s) = UInt8.ofNat (numScreens s') := by
    have hanswer := h.answer (some (.message (.finalize ⟨0, .generic, .error⟩)))
    have hs := hreply ⟨s, [], []⟩ hc (.finalize ⟨0, .generic, .error⟩)
    have hs' := hreply ⟨s', [], []⟩ hd (.finalize ⟨0, .generic, .error⟩)
    have hmsg := answered_inj (Outcome.returned.inj (hs.symm.trans (hanswer.trans hs')))
    exact congrArg EthPluginFinalize.numScreens (PluginCall.finalize.inj hmsg)
  have hversion : (view s).version = (view s').version := by
    have hanswer := h.answer (some (.message (.queryContractId probeId)))
    obtain ⟨m, hs, hnamed⟩ := hreply ⟨s, [], []⟩ hc (.queryContractId probeId)
    obtain ⟨m', hs', hnamed'⟩ := hreply ⟨s', [], []⟩ hd (.queryContractId probeId)
    have hmsg := answered_inj (Outcome.returned.inj (hs.symm.trans (hanswer.trans hs')))
    obtain rfl : m = m' := PluginCall.queryContractId.inj hmsg
    exact hnamed.version.symm.trans hnamed'.version
  have hscreens : (view s).screens = (view s').screens := by
    refine List.ext_getElem (by simp [view, screens_length]) ?_
    intro k hk hk'
    have hlt : k < (screens s).length := by simpa [view] using hk
    have hlt' : k < (screens s').length := by simpa [view] using hk'
    have hi : (UInt8.ofNat k).toNat = k := by
      rw [screens_length] at hlt
      rw [UInt8.toNat_ofNat']
      omega
    have hscreen : (screens s)[(UInt8.ofNat k).toNat]? = some ((screens s)[k]) := by
      rw [hi]
      exact List.getElem?_eq_getElem hlt
    have hscreen' : (screens s')[(UInt8.ofNat k).toNat]? = some ((screens s')[k]) := by
      rw [hi]
      exact List.getElem?_eq_getElem hlt'
    obtain ⟨o, ho, hanswer⟩ := displays_query referenceSdk_lawful (represents_probed s) rfl
      (roomy_probes s) (UInt8.ofNat k) hscreen
    obtain ⟨o', ho', hanswer'⟩ := displays_query referenceSdk_lawful (represents_probed s') rfl
      (roomy_probes s') (UInt8.ofNat k) hscreen'
    have hsame := hanswer.symm.trans (((h.run probes).answer _).trans hanswer')
    have hshown (m m' : EthQueryContractUI)
        (hm : answered (.queryContractUi m) = answered (.queryContractUi m')) : m = m' :=
      PluginCall.queryContractUi.inj (answered_inj hm)
    obtain rfl := Outcome.map_injective hshown hsame
    obtain ⟨htitle, htext⟩ := displays_inj ho ho'
    simp only [view, List.getElem_map]
    exact Prod.ext htitle htext
  simp only [view, View.mk.injEq] at hscreens hversion ⊢
  exact ⟨hwords, hnum, hversion, hscreens⟩

end Probes

/-- From the init call on, two operations get the same answers to every sequence
of calls, with every app, exactly if there is nothing different to see of them. -/
theorem indistinct_iff (s s' : StakedaoSelector) :
    (∀ sdk, (plugin sdk).Equivalent (initialContext s) (initialContext s')) ↔
      seen s = seen s' := by
  constructor
  · intro h
    exact seen_of_view (view_of_equivalent (h referenceSdk))
  · intro h sdk
    exact (seenAlike_simulates sdk).equivalent
      ⟨_, _, represents_initialContext sdk s, represents_initialContext sdk s', h, rfl, rfl⟩

-- a stake with an NFT and a deposit with a minimum, though they store their second words apart
example : seen .premiumStake = seen .optDepositUnderlying := by decide

end StakedaoPlugin
