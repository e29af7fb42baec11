import StakedaoPlugin.DisplayedAmount

/-! The screens that show a pool or NFT identifier. Its word passes a slot of
half the width on the way there. -/
namespace StakedaoPlugin
open CMemory DecimalText History

theorem toList_lowHalf (w : Word) : (lowHalf w).toList = w.toList.drop 16 := by
  refine List.ext_getElem (by simp) ?_
  intro i hi _
  have hi' : 16 + i < 32 := by
    simp only [Vector.length_toList] at hi
    omega
  simp [lowHalf, hi']

/-- The slot holds the identifier modulo its width. -/
theorem beNat_lowHalf (w : Word) : beNat (lowHalf w).toList = beNat w.toList % 2 ^ 128 := by
  have hlen : (w.toList.drop 16).length = 16 := by simp
  rw [toList_lowHalf, beNat_drop, hlen]
  rfl

section Screen
variable {s : StakedaoSelector} (ui : EthQueryContractUI) {context : StakedaoParameters}

/-- `set_masterchef_name` and `set_nft_id` differ only in the title. -/
theorem handleQueryContractUi_pid (sdk : Sdk) (hs : context.selectorIndex = s.toIndex)
    (hp : ShowsPid s) (hi : ui.screenIndex = idScreen s) :
    ∃ title, handleQueryContractUi sdk ui context =
      (amountToMsg sdk (setTitle title (cleared ui)) context.pid.toList 0 []).map
        fun m => (m, refresh context ui.txContent.destination) := by
  have hsame := sameCall_refresh context ui.txContent.destination
  obtain ⟨title, hscreen⟩ : ∃ title,
      (screens s)[(idScreen s).toNat]? = some ⟨title, .identifier⟩ := by
    rcases hp with (rfl | rfl) | rfl <;> exact ⟨_, rfl⟩
  rw [← hi] at hscreen
  have hshow := showScreen_eq_render sdk (cleared ui) (hsame.selectorIndex.trans hs) hscreen
  refine ⟨title, ?_⟩
  rw [handleQueryContractUi_eq, hshow, ← hsame.pid]
  rfl

variable {sdk : Sdk}

theorem shows_of_amountToString (hsdk : sdk.Lawful) (hs : context.selectorIndex = s.toIndex)
    (hp : ShowsPid s) (hi : ui.screenIndex = idScreen s) (hstray : ui.msg.stray = false)
    {text : List UInt8}
    (htext : sdk.amountToString context.pid.toList 0 [] (UInt8.ofNat ui.msg.length) = some text) :
    Shows sdk ui context (decimalText 0 (beNat context.pid.toList)) := by
  have ht : text = decimalText 0 (beNat context.pid.toList) := hsdk.exact _ _ _ _ htext
  have hnul : ∀ b ∈ text, b ≠ 0 := by
    rw [ht]
    exact decimalText_ne_nul _ _
  obtain ⟨title, hui⟩ := handleQueryContractUi_pid ui sdk hs hp hi
  obtain ⟨m, hm, hok, -, -, hmsg, hshown⟩ := cstr_amountToMsg hsdk title (Or.inl rfl) htext
  refine ⟨m, ?_, hok, hmsg.trans hstray, ?_⟩
  · rw [hui, hm]
    rfl
  · rw [hshown, cstr_eq_self hnul, ht]

/-- The identifier screen fails, or it shows the number that the slot holds. -/
theorem thrown_or_shows_pid (hsdk : sdk.Lawful) (hs : context.selectorIndex = s.toIndex)
    (hp : ShowsPid s) (hi : ui.screenIndex = idScreen s) (hstray : ui.msg.stray = false) :
    (∃ p, handleQueryContractUi sdk ui context = .thrown p) ∨
      Shows sdk ui context (decimalText 0 (beNat context.pid.toList)) := by
  cases htext : sdk.amountToString context.pid.toList 0 [] (UInt8.ofNat ui.msg.length) with
  | some text => exact Or.inr (shows_of_amountToString ui hsdk hs hp hi hstray htext)
  | none =>
    obtain ⟨title, hui⟩ := handleQueryContractUi_pid ui sdk hs hp hi
    refine Or.inl ⟨(setTitle title (cleared ui), refresh context ui.txContent.destination), ?_⟩
    rw [hui, amountToMsg_cleared, htext]
    rfl

/-- A buffer of 100 bytes has room for every identifier. -/
theorem shows_pid (hsdk : sdk.Lawful) (hs : context.selectorIndex = s.toIndex)
    (hp : ShowsPid s) (hi : ui.screenIndex = idScreen s) (hstray : ui.msg.stray = false)
    (hlen : 100 ≤ ui.msg.length % 256) :
    Shows sdk ui context (decimalText 0 (beNat context.pid.toList)) := by
  have hsize : 100 ≤ (UInt8.ofNat ui.msg.length).toNat := by
    rw [UInt8.toNat_ofNat']
    exact hlen
  have hroom := hsdk.room context.pid.toList 0 (UInt8.ofNat ui.msg.length) (by simp) (by decide)
    hsize
  obtain ⟨text, htext⟩ := Option.isSome_iff_exists.mp hroom
  exact shows_of_amountToString ui hsdk hs hp hi hstray htext

/-- A context shows one text on one screen. -/
theorem Shows.unique {t u : List UInt8} (ht : Shows sdk ui context t)
    (hu : Shows sdk ui context u) : t = u := by
  obtain ⟨m, hm, -, -, rfl⟩ := ht
  obtain ⟨n, hn, -, -, rfl⟩ := hu
  rw [hm, Outcome.returned.injEq, Prod.mk.injEq] at hn
  rw [hn.1]

theorem Shows.not_thrown {t : List UInt8} (ht : Shows sdk ui context t) :
    ¬ ∃ p, handleQueryContractUi sdk ui context = .thrown p := by
  intro hthrown
  obtain ⟨m, hm, -⟩ := ht
  obtain ⟨p, hp⟩ := hthrown
  rw [hm] at hp
  cases hp

end Screen

/-- A call of an operation with an identifier, accepted with as many words as
its signature has. -/
structure IdentifierCall (sdk : Sdk) where
  init : EthPluginInitContract
  before : StakedaoParameters
  words : List Word
  context : StakedaoParameters
  accepted : parsed sdk init before words = some context
  operation : ShowsPid (chosen init.selector init.txContent.destination)
  arity : words.length = headWords (chosen init.selector init.txContent.destination)

namespace IdentifierCall
variable {sdk : Sdk} (call : IdentifierCall sdk)

def selector : StakedaoSelector := chosen call.init.selector call.init.txContent.destination

theorem words_ne_nil : call.words ≠ [] := by
  have hpos := (positions_lt _).2 call.operation
  rw [← call.arity] at hpos
  exact List.ne_nil_of_length_pos hpos

/-- The first argument of the call. -/
def argument : Word := call.words.head call.words_ne_nil

def identifier : Nat := beNat call.argument.toList

/-- Every screen for the identifier fails, or shows all of it in decimal. -/
def Shown : Prop :=
  ∀ (qs : List Query) (ui : EthQueryContractUI), ui.screenIndex = idScreen call.selector →
    ui.msg.stray = false →
    (∃ p, handleQueryContractUi sdk ui (run (present sdk) qs call.context) = .thrown p) ∨
      Shows sdk ui (run (present sdk) qs call.context) (decimalText 0 call.identifier)

/-- Some screen for the identifier shows this text. -/
def ShownAs (text : List UInt8) : Prop :=
  ∃ (qs : List Query) (ui : EthQueryContractUI), ui.screenIndex = idScreen call.selector ∧
    ui.msg.stray = false ∧ Shows sdk ui (run (present sdk) qs call.context) text

theorem pid_context : call.context.pid = lowHalf call.argument := by
  have hword : wordAt (decide (call.selector = .nftStake)) 0 call.words = some call.argument := by
    have hhead : call.words[0]? = some call.argument :=
      (List.head?_eq_getElem?).symm.trans (List.head?_eq_some_head call.words_ne_nil)
    by_cases hn : call.selector = .nftStake
    · have hlen : call.words.length = 0 + 1 := by
        rw [call.arity]
        exact congrArg headWords hn
      rw [wordAt_exact call.words _ 0 hlen, hhead]
    · rw [decide_eq_false hn]
      exact hhead
  have hsel : chosen call.init.selector call.init.txContent.destination = call.selector := rfl
  rw [pid_parsed call.accepted call.operation, hsel, hword]
  rfl

section Run
variable (qs : List Query)

theorem selectorIndex_run : (run (present sdk) qs call.context).selectorIndex =
    call.selector.toIndex :=
  StakedaoPlugin.selectorIndex_run sdk call.accepted qs

theorem beNat_pid_run : beNat (run (present sdk) qs call.context).pid.toList =
    call.identifier % 2 ^ 128 := by
  rw [(sameCall_run call.context sdk qs).pid, call.pid_context]
  exact beNat_lowHalf call.argument

end Run

variable {call}

/-- No screen shows anything but the identifier modulo the width of the slot. -/
theorem eq_of_shownAs (hsdk : sdk.Lawful) {text : List UInt8} (h : call.ShownAs text) :
    text = decimalText 0 (call.identifier % 2 ^ 128) := by
  obtain ⟨qs, ui, hi, hstray, hshow⟩ := h
  have hpid := thrown_or_shows_pid ui hsdk (call.selectorIndex_run qs) call.operation hi hstray
  rw [call.beNat_pid_run] at hpid
  exact hshow.unique ui (hpid.resolve_left hshow.not_thrown)

variable (call)

/-- An identifier screen with a message buffer of 100 bytes. -/
def wideQuery : EthQueryContractUI := uiQuery anyTx (idScreen call.selector) 100

theorem shows_wideQuery (hsdk : sdk.Lawful) (qs : List Query) :
    Shows sdk call.wideQuery (run (present sdk) qs call.context)
      (decimalText 0 (call.identifier % 2 ^ 128)) := by
  have hlen : 100 ≤ call.wideQuery.msg.length % 256 := by
    rw [wideQuery, length_uiQuery]
  rw [← call.beNat_pid_run qs]
  exact shows_pid call.wideQuery hsdk (call.selectorIndex_run qs) call.operation rfl rfl hlen

theorem shownAs_identifier (hsdk : sdk.Lawful) :
    call.ShownAs (decimalText 0 (call.identifier % 2 ^ 128)) :=
  ⟨[], call.wideQuery, rfl, rfl, call.shows_wideQuery hsdk []⟩

theorem lt_of_shown (hsdk : sdk.Lawful) (h : call.Shown) : call.identifier < 2 ^ 128 := by
  have hwide := call.shows_wideQuery hsdk []
  have hfull := (h [] call.wideQuery rfl rfl).resolve_left hwide.not_thrown
  have heq := decimalText_inj _ _ _ (hfull.unique _ hwide)
  exact (Nat.mod_eq_iff_lt (by decide)).mp heq.symm

/-- The number on the screen is the identifier of the calldata exactly when the
high half of its word is zero; two identifiers are told apart exactly when
they differ in the low half. -/
theorem identifier_shown_iff (hsdk : sdk.Lawful) :
    (call.Shown ↔ call.identifier < 2 ^ 128) ∧
    ∀ other : IdentifierCall sdk,
      (∀ text, call.ShownAs text → other.ShownAs text → call.identifier = other.identifier) ↔
        (call.identifier % 2 ^ 128 = other.identifier % 2 ^ 128 →
          call.identifier = other.identifier) := by
  refine ⟨⟨call.lt_of_shown hsdk, ?_⟩, ?_⟩
  · intro hlt qs ui hi hstray
    have hpid := thrown_or_shows_pid ui hsdk (call.selectorIndex_run qs) call.operation hi hstray
    rwa [call.beNat_pid_run, Nat.mod_eq_of_lt hlt] at hpid
  · intro other
    constructor
    · intro hsep hmod
      refine hsep _ (call.shownAs_identifier hsdk) ?_
      rw [hmod]
      exact other.shownAs_identifier hsdk
    · intro hinj text hc ho
      have heq := (eq_of_shownAs hsdk hc).symm.trans (eq_of_shownAs hsdk ho)
      exact hinj (decimalText_inj _ _ _ heq)

end IdentifierCall

/-- `stake(uint256)` on the NFT booster. -/
def nftStakeCall (id : Nat) : IdentifierCall referenceSdk where
  init := initCall stakedaoNftStakeSelector stakedaoNftBoost
  before := .zero
  words := [wordOf id]
  context := delivered referenceSdk .nftStake [wordOf id]
  accepted := parsed_initCall _ _ _ _
  operation := Or.inr rfl
  arity := rfl

theorem identifier_shown_twelve :
    (nftStakeCall 12).Shown ∧
    ∀ text, (nftStakeCall 12).ShownAs text → ¬ (nftStakeCall 2).ShownAs text := by
  have hiff := (nftStakeCall 12).identifier_shown_iff referenceSdk_lawful
  refine ⟨hiff.1.mpr (by decide +kernel), ?_⟩
  intro text h12 h2
  have hne : (nftStakeCall 12).identifier % 2 ^ 128 ≠ (nftStakeCall 2).identifier % 2 ^ 128 := by
    decide +kernel
  have heq := (hiff.2 (nftStakeCall 2)).mpr (fun h => absurd h hne) text h12 h2
  exact hne (congrArg (· % 2 ^ 128) heq)

/-- An identifier with a bit in the high half is shown as that of another NFT. -/
theorem identifier_confused :
    ¬ (nftStakeCall (2 ^ 128 + 2)).Shown ∧
    (nftStakeCall (2 ^ 128 + 2)).identifier ≠ (nftStakeCall 2).identifier ∧
    (nftStakeCall (2 ^ 128 + 2)).ShownAs (literal "2") ∧
    (nftStakeCall 2).ShownAs (literal "2") := by
  have hlow (n : Nat) (h : (nftStakeCall n).identifier % 2 ^ 128 = 2) :
      (nftStakeCall n).ShownAs (literal "2") := by
    have htext : decimalText 0 2 = literal "2" := by decide +kernel
    have hshown := (nftStakeCall n).shownAs_identifier referenceSdk_lawful
    rwa [h, htext] at hshown
  refine ⟨?_, by decide +kernel, hlow _ (by decide +kernel), hlow _ (by decide +kernel)⟩
  intro h
  have hlt := (nftStakeCall (2 ^ 128 + 2)).lt_of_shown referenceSdk_lawful h
  exact absurd hlt (by decide +kernel)

end StakedaoPlugin
