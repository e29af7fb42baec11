import StakedaoPlugin.Alike
import StakedaoPlugin.Identifiers

/-! Calldata that is longer or shorter than the arguments of the operation, and
what the screens make of it. -/
namespace StakedaoPlugin
open CMemory DecimalText History

section Trailing
variable (sdk : Sdk) (init : EthPluginInitContract) (c₀ : StakedaoParameters)
  {s : StakedaoSelector} (ws xs : List Word)

/-- The slots that screens show hold the words at the positions of their arguments. -/
structure HoldsArguments (s : StakedaoSelector) (ws : List Word) (c : StakedaoParameters) :
    Prop where
  amount : ShowsAmount s → ws[amountPosition s]? = some c.amount
  pid : ShowsPid s → ws[0]?.map lowHalf = some c.pid

/-- The further words are refused, or no announced screen changes with them, and
the amount and the identifier stay those of the arguments. -/
def TrailingIgnored : Prop :=
  parsed sdk init c₀ (ws ++ xs) = none ∨
    ∃ c d, parsed sdk init c₀ ws = some c ∧ parsed sdk init c₀ (ws ++ xs) = some d ∧
      (∀ fin ui, ui.screenIndex < (handleFinalize fin c).1.numScreens →
        shown (handleQueryContractUi sdk ui d) = shown (handleQueryContractUi sdk ui c)) ∧
      HoldsArguments (chosen init.selector init.txContent.destination) ws d

/-- The last word leaves in the slot what the argument's own word left there. -/
def EndsInArgument (s : StakedaoSelector) (us : List Word) : Prop :=
  ∀ w ∈ us[amountPosition s]?, ∀ x ∈ us.getLast?,
    if s = .nftStake then lowHalf x = lowHalf w else x = w

variable {sdk init c₀ ws xs} {c d : StakedaoParameters}

/-- A slot holds its own word, unless the last case of the switch has copied
another value over it. -/
theorem wordAt_map_iff {β : Type} (f : Word → β) (copies : Bool) {position : Nat}
    (hp : position < ws.length) :
    (wordAt copies position ws).map f = ws[position]?.map f ↔
      (copies = true → ∀ w ∈ ws[position]?, ∀ x ∈ ws.getLast?, f x = f w) := by
  cases copies with
  | false => simp [wordAt]
  | true =>
    have hlast : wordAt true position ws = ws.getLast? := by
      simpa using wordAt_append ws true position [] hp
    have hne : ws ≠ [] := List.ne_nil_of_length_pos (by omega)
    rw [hlast, List.getElem?_eq_getElem hp, List.getLast?_eq_some_getLast hne]
    simp

theorem copiesTrailing_cases (s : StakedaoSelector) (h : copiesTrailing s = true) :
    numScreens s = 4 ∧ (s = .nftStake ∨ ∃ f, tickerField s = some f) := by
  cases s <;> first
    | exact ⟨rfl, Or.inl rfl⟩
    | exact ⟨rfl, Or.inr ⟨_, rfl⟩⟩
    | exact absurd h (by decide)

theorem ShowsAmount.ne_nftStake (h : ShowsAmount s) : s ≠ .nftStake := by
  rintro rfl
  exact absurd h (by decide)

theorem amount_slot_iff (hd : parsed sdk init c₀ ws = some d)
    (hs : chosen init.selector init.txContent.destination = s) (hlen : headWords s ≤ ws.length)
    (h : ShowsAmount s) :
    ws[amountPosition s]? = some d.amount ↔
      (copiesTrailing s = true → ∀ w ∈ ws[amountPosition s]?, ∀ x ∈ ws.getLast?, x = w) := by
  have hp := Nat.lt_of_lt_of_le ((positions_lt s).1 h) hlen
  have hiff := wordAt_map_iff id (copiesTrailing s) hp
  obtain ⟨-, w, -, hw⟩ :=
    (wordAt_cases ws (copiesTrailing s) (amountPosition s)).resolve_right (fun hn => hn.1 hp)
  subst hs
  simp only [hw, Option.map_id, id_eq] at hiff
  rw [amount_parsed hd h, hw, ← hiff, eq_comm]
  rfl

theorem pid_slot_iff (hd : parsed sdk init c₀ ws = some d)
    (hs : chosen init.selector init.txContent.destination = s) (hlen : headWords s ≤ ws.length)
    (h : ShowsPid s) :
    ws[0]?.map lowHalf = some d.pid ↔
      (s = .nftStake → ∀ w ∈ ws[0]?, ∀ x ∈ ws.getLast?, lowHalf x = lowHalf w) := by
  have hp := Nat.lt_of_lt_of_le ((positions_lt s).2 h) hlen
  have hiff := wordAt_map_iff lowHalf (decide (s = .nftStake)) hp
  obtain ⟨-, w, -, hw⟩ :=
    (wordAt_cases ws (decide (s = .nftStake)) 0).resolve_right (fun hn => hn.1 hp)
  subst hs
  rw [hw, decide_eq_true_eq] at hiff
  rw [pid_parsed hd h, hw, ← hiff, eq_comm]
  rfl

/-- The slots hold the arguments exactly where the operation copies no word behind
them, or the last one is theirs again. -/
theorem holdsArguments_iff (hd : parsed sdk init c₀ ws = some d)
    (hs : chosen init.selector init.txContent.destination = s) (hlen : headWords s ≤ ws.length) :
    HoldsArguments s ws d ↔ (copiesTrailing s = true → EndsInArgument s ws) := by
  constructor
  · intro h hcopies w hw x hx
    rcases (copiesTrailing_cases s hcopies).2 with rfl | ⟨f, hf⟩
    · have hpid : ShowsPid .nftStake := Or.inr rfl
      exact (pid_slot_iff hd hs hlen hpid).mp (h.pid hpid) rfl w hw x hx
    · have hamount : ShowsAmount s := Or.inl (by rw [hf]; exact Option.some_ne_none f)
      rw [if_neg hamount.ne_nftStake]
      exact (amount_slot_iff hd hs hlen hamount).mp (h.amount hamount) hcopies w hw x hx
  · intro h
    constructor
    · intro hamount
      refine (amount_slot_iff hd hs hlen hamount).mpr ?_
      intro hcopies w hw x hx
      have hends := h hcopies w hw x hx
      rwa [if_neg hamount.ne_nftStake] at hends
    · intro hpid
      refine (pid_slot_iff hd hs hlen hpid).mpr ?_
      rintro rfl w hw x hx
      exact h rfl w hw x hx

/-- Where the slots hold the arguments of both, no screen tells the contexts apart. -/
theorem alike_of_holdsArguments (hc : parsed sdk init c₀ ws = some c)
    (hd : parsed sdk init c₀ (ws ++ xs) = some d)
    (hs : chosen init.selector init.txContent.destination = s)
    (hcs : HoldsArguments s ws c) (hds : HoldsArguments s ws d) : Alike s d c where
  untouched := (untouched_parsed sdk hd).trans (untouched_parsed sdk hc).symm
  selectorIndex := by
    rw [selectorIndex_parsed sdk hd, hs]
  vault := namesTerminated_parsed sdk hd .vault
  amount h := Option.some.inj ((hds.amount h).symm.trans (hcs.amount h))
  pid h := Option.some.inj ((hds.pid h).symm.trans (hcs.pid h))

/-- The arguments stand before the further words. -/
theorem holdsArguments_append (hlen : headWords s ≤ ws.length) :
    HoldsArguments s (ws ++ xs) d ↔ HoldsArguments s ws d := by
  have hamount (h : ShowsAmount s) : (ws ++ xs)[amountPosition s]? = ws[amountPosition s]? :=
    List.getElem?_append_left (Nat.lt_of_lt_of_le ((positions_lt s).1 h) hlen)
  have hpid (h : ShowsPid s) : (ws ++ xs)[0]? = ws[0]? :=
    List.getElem?_append_left (Nat.lt_of_lt_of_le ((positions_lt s).2 h) hlen)
  constructor
  · intro h
    exact ⟨fun hs => hamount hs ▸ h.amount hs, fun hs => hpid hs ▸ h.pid hs⟩
  · intro h
    exact ⟨fun hs => (hamount hs).trans (h.amount hs),
      fun hs => (congrArg _ (hpid hs)).trans (h.pid hs)⟩

theorem parsed_prefix (hd : parsed sdk init c₀ (ws ++ xs) = some d) :
    ∃ c, parsed sdk init c₀ ws = some c := by
  have hsup := supported_of_parsed sdk hd
  by_cases hw : headWords (chosen init.selector init.txContent.destination) = 0
  · rw [parsed_eq sdk init c₀ _ hsup, provideParameters_noParams sdk _ _ hw] at hd
    by_cases hnil : ws ++ xs = []
    · have hws : ws = [] := (List.append_eq_nil_iff.mp hnil).1
      exact ⟨_, by rw [parsed_eq sdk init c₀ ws hsup, hws]; rfl⟩
    · rw [if_neg hnil] at hd
      cases hd
  · exact exists_parsed sdk c₀ hsup hw ws

theorem shows_unique {ui : EthQueryContractUI} {t u : List UInt8} (hc : Shows sdk ui c t)
    (hd : Shows sdk ui d u)
    (h : shown (handleQueryContractUi sdk ui d) = shown (handleQueryContractUi sdk ui c)) :
    u = t := by
  obtain ⟨m, hm, -, -, htext⟩ := hc
  obtain ⟨n, hn, -, -, hutext⟩ := hd
  rw [hm, hn] at h
  simp only [shown, Outcome.map_returned, Outcome.returned.injEq,
    Prod.mk.injEq] at h
  rw [← htext, ← hutext, h.2.1]

section Wide
variable {ui : EthQueryContractUI} (hui : MsgBuffer ui) (hlen : 117 ≤ ui.msg.length)
include hui hlen

/-- In a wide buffer the amount screens differ where the amounts do. -/
theorem amount_eq_of_shown (hsdk : sdk.Lawful) {f : NameField} (hf : tickerField s = some f)
    (hi : ui.screenIndex.toNat = 2)
    (hc : c.selectorIndex = s.toIndex) (hd : d.selectorIndex = s.toIndex)
    (hu : untouched d = untouched c) (hdec : c.decimals.toNat ≤ 18)
    (h : shown (handleQueryContractUi sdk ui d) = shown (handleQueryContractUi sdk ui c)) :
    d.amount = c.amount := by
  have hur := untouched_refresh hu ui.txContent.destination
  have hle := decimals_refresh_le c ui.txContent.destination hdec
  have hdd := decimals_of_untouched hur
  have hfits (a : Word) : AmountFits
      (decimalText (refresh c ui.txContent.destination).decimals.toNat (beNat a.toList))
      (f.read (refresh c ui.txContent.destination)) ui.msg.length :=
    amountFits_of_wide _ (decimalText_beNat_length_lt a.toList _ (by simp) hle) hlen
  have hsc := shows_ticker ui hsdk hc hf hi hui rfl hle rfl (hfits c.amount)
  have hsd := shows_ticker ui hsdk hd hf hi hui hdd hle (read_of_untouched hur f) (hfits d.amount)
  exact amount_of_withTicker (shows_unique hsc hsd h)

theorem pid_eq_of_shown (hsdk : sdk.Lawful) (hp : ShowsPid s) (hi : ui.screenIndex = idScreen s)
    (hc : c.selectorIndex = s.toIndex) (hd : d.selectorIndex = s.toIndex)
    (h : shown (handleQueryContractUi sdk ui d) = shown (handleQueryContractUi sdk ui c)) :
    d.pid = c.pid := by
  have hle := hui.le
  have hroom : 100 ≤ ui.msg.length % 256 := by omega
  have hsc := shows_pid ui hsdk hc hp hi hui.stray hroom
  have hsd := shows_pid ui hsdk hd hp hi hui.stray hroom
  exact beNat_toList_inj _ _ (decimalText_inj _ _ _ (shows_unique hsc hsd h))

end Wide

/-- Where no screen changes, an argument that is shown has been shown before. -/
theorem holdsArguments_of_shown (hsdk : sdk.Lawful) (hc : parsed sdk init c₀ ws = some c)
    (hd : parsed sdk init c₀ (ws ++ xs) = some d)
    (hs : chosen init.selector init.txContent.destination = s)
    (hcopies : copiesTrailing s = true)
    (hall : ∀ fin ui, ui.screenIndex < (handleFinalize fin c).1.numScreens →
      shown (handleQueryContractUi sdk ui d) = shown (handleQueryContractUi sdk ui c))
    (h : HoldsArguments s ws d) : HoldsArguments s ws c := by
  have hci : c.selectorIndex = s.toIndex := by rw [selectorIndex_parsed sdk hc, hs]
  have hdi : d.selectorIndex = s.toIndex := by rw [selectorIndex_parsed sdk hd, hs]
  have hu : untouched d = untouched c :=
    (untouched_parsed sdk hd).trans (untouched_parsed sdk hc).symm
  obtain ⟨hscreens, hshown⟩ := copiesTrailing_cases s hcopies
  -- a buffer in which neither amount is cut, so equal screens mean equal slots
  have hui (i : UInt8) : MsgBuffer (uiQuery anyTx i 255) :=
    msgBuffer_uiQuery anyTx i (Nat.le_of_ble_eq_true rfl) (Nat.le_refl 255)
  have hwide (i : UInt8) : 117 ≤ (uiQuery anyTx i 255).msg.length := by
    rw [length_uiQuery]
    omega
  have hequal (i : UInt8) (hi : i.toNat < 4) := hall ⟨0, .generic, .error⟩ (uiQuery anyTx i 255) (by
    rw [UInt8.lt_iff_toNat_lt, handleFinalize_numScreens s c _ hci, hscreens]
    exact hi)
  constructor
  · intro hamount
    obtain ⟨f, hf⟩ := hshown.resolve_left hamount.ne_nftStake
    have hdec : c.decimals.toNat ≤ 18 := decimals_run_le sdk hc []
    have heq := amount_eq_of_shown (hui 2) (hwide 2) hsdk hf rfl hci hdi hu hdec
      (hequal 2 (by decide))
    rw [← heq]
    exact h.amount hamount
  · intro hpid
    have hid : (idScreen s).toNat < 4 := by
      unfold idScreen
      split_ifs <;> decide
    have heq := pid_eq_of_shown (hui (idScreen s)) (hwide (idScreen s)) hsdk hpid rfl hci hdi
      (hequal (idScreen s) hid)
    rw [← heq]
    exact h.pid hpid

theorem endsInArgument_of_ignored (hsdk : sdk.Lawful) (hsup : Supported sdk init)
    (hs : chosen init.selector init.txContent.destination = s)
    (hlen : headWords s ≤ ws.length) (hcopies : copiesTrailing s = true)
    (h : TrailingIgnored sdk init c₀ ws xs) :
    EndsInArgument s ws ∧ EndsInArgument s (ws ++ xs) := by
  have hmore : headWords s ≤ (ws ++ xs).length := by
    rw [List.length_append]
    omega
  have hwords : headWords (chosen init.selector init.txContent.destination) ≠ 0 := by
    rw [hs]
    revert hcopies
    cases s <;> decide
  rcases h with hnone | ⟨c, d, hc, hd, hall, hholds⟩
  · obtain ⟨d, hd⟩ := exists_parsed sdk c₀ hsup hwords (ws ++ xs)
    rw [hnone] at hd
    cases hd
  rw [hs] at hholds
  have hholds' := holdsArguments_of_shown hsdk hc hd hs hcopies hall hholds
  exact ⟨(holdsArguments_iff hc hs hlen).mp hholds' hcopies,
    (holdsArguments_iff hd hs hmore).mp ((holdsArguments_append hlen).mpr hholds) hcopies⟩

/-- Further words change nothing that is shown and leave the arguments on the
screens, exactly where the last case of the operation does not copy them there,
or copies the argument's own word again, before the further words and with them. -/
theorem trailing_ignored_iff (hsdk : sdk.Lawful)
    (hok : (handleInitContract sdk init c₀).1.result = .ok)
    (hs : chosen init.selector init.txContent.destination = s)
    (hlen : headWords s ≤ ws.length) :
    TrailingIgnored sdk init c₀ ws xs ↔
      (copiesTrailing s = true → EndsInArgument s ws ∧ EndsInArgument s (ws ++ xs)) := by
  have hsup := (handleInitContract_ok_iff sdk init c₀).mp hok
  have hmore : headWords s ≤ (ws ++ xs).length := by
    rw [List.length_append]
    omega
  constructor
  · intro h hcopies
    exact endsInArgument_of_ignored hsdk hsup hs hlen hcopies h
  · intro hends
    cases hd : parsed sdk init c₀ (ws ++ xs) with
    | none => exact Or.inl hd
    | some d =>
      obtain ⟨c, hc⟩ := parsed_prefix hd
      have hcs := (holdsArguments_iff hc hs hlen).mpr fun hcopies => (hends hcopies).1
      have hds := (holdsArguments_append hlen).mp
        ((holdsArguments_iff hd hs hmore).mpr fun hcopies => (hends hcopies).2)
      refine Or.inr ⟨c, d, hc, hd, ?_, by rwa [hs]⟩
      intro fin ui _
      exact alike_shown sdk (alike_of_holdsArguments hc hd hs hcs hds) ui

end Trailing

theorem trailing_ignored_optWithdraw :
    TrailingIgnored referenceSdk (initCall stakedaoOptWithdrawEthSelector passiveStEth.address)
      .zero [wordOf (10 ^ 18), wordOf 1] [maxUint] := by
  have hs : chosen stakedaoOptWithdrawEthSelector passiveStEth.address = .optWithdrawEth := rfl
  have hlen : headWords .optWithdrawEth ≤ [wordOf (10 ^ 18), wordOf 1].length := Nat.le_refl 2
  exact (trailing_ignored_iff referenceSdk_lawful (initCall_ok _ _ .zero) hs hlen).mpr
    (fun hcopies => absurd hcopies (by decide))

/-- A word behind the only argument of a deposit is shown in its place. -/
theorem trailing_shown_deposit :
    cstr (handleQueryContractUi referenceSdk (uiQuery (callTo passiveStEth.address) 2 79)
        (delivered referenceSdk .vaultDeposit [wordOf (10 ^ 18)])).state.1.msg.bytes =
      literal "1 steCRV" ∧
    cstr (handleQueryContractUi referenceSdk (uiQuery (callTo passiveStEth.address) 2 79)
        (delivered referenceSdk .vaultDeposit
          ([wordOf (10 ^ 18)] ++ [wordOf (2 * 10 ^ 18)]))).state.1.msg.bytes =
      literal "2 steCRV" ∧
    ¬ TrailingIgnored referenceSdk (initCall stakedaoVaultDepositSelector passiveStEth.address)
      .zero [wordOf (10 ^ 18)] [wordOf (2 * 10 ^ 18)] := by
  refine ⟨by decide +kernel, by decide +kernel, ?_⟩
  intro h
  have hs : chosen stakedaoVaultDepositSelector passiveStEth.address = .vaultDeposit := rfl
  have hlen : headWords .vaultDeposit ≤ [wordOf (10 ^ 18)].length := Nat.le_refl 1
  have hends := endsInArgument_of_ignored referenceSdk_lawful (supported_initCall _ _) hs hlen rfl h
  have heq : wordOf (2 * 10 ^ 18) = wordOf (10 ^ 18) := hends.2 _ rfl _ rfl
  exact absurd heq (by decide +kernel)

section Incomplete
variable (sdk : Sdk) {init : EthPluginInitContract} {c₀ c : StakedaoParameters} {ws : List Word}

/-- `handle_finalize` accepts any number of words; a slot that a screen shows
holds a word of the calldata if the word of its argument was delivered, and the
zero of the cleared context if it was not. -/
theorem finalize_any_words (h : parsed sdk init c₀ ws = some c) (qs : List Query) :
    let s := chosen init.selector init.txContent.destination
    (∀ fin, (handleFinalize fin (run (present sdk) qs c)).1.result = .ok) ∧
    (ShowsAmount s → if amountPosition s < ws.length
      then (run (present sdk) qs c).amount ∈ ws
      else (run (present sdk) qs c).amount = Vector.replicate 32 0) ∧
    (ShowsPid s → if 0 < ws.length
      then ∃ w ∈ ws, (run (present sdk) qs c).pid = lowHalf w
      else (run (present sdk) qs c).pid = Vector.replicate 16 0) ∧
    (headWords s ≤ ws.length →
      (ShowsAmount s → (run (present sdk) qs c).amount ∈ ws) ∧
      (ShowsPid s → ∃ w ∈ ws, (run (present sdk) qs c).pid = lowHalf w)) := by
  intro s
  have hsame := sameCall_run c sdk qs
  rw [hsame.amount, hsame.pid]
  have hamount (hs : ShowsAmount s) : if amountPosition s < ws.length then c.amount ∈ ws
      else c.amount = Vector.replicate 32 0 := by
    rw [amount_parsed h hs]
    rcases wordAt_cases ws (copiesTrailing s) (amountPosition s) with ⟨hp, w, hmem, hw⟩ | ⟨hn, hw⟩
    · rw [if_pos hp, hw]
      exact hmem
    · rw [if_neg hn, hw]
      rfl
  have hpid (hs : ShowsPid s) : if 0 < ws.length then ∃ w ∈ ws, c.pid = lowHalf w
      else c.pid = Vector.replicate 16 0 := by
    rw [pid_parsed h hs]
    rcases wordAt_cases ws (decide (s = .nftStake)) 0 with ⟨hp, w, hmem, hw⟩ | ⟨hn, hw⟩
    · rw [if_pos hp, hw]
      exact ⟨w, hmem, rfl⟩
    · rw [if_neg hn, hw]
      rfl
  refine ⟨handleFinalize_result _, hamount, hpid, ?_⟩
  intro hlen
  constructor
  · intro hs
    have hp := Nat.lt_of_lt_of_le ((positions_lt s).1 hs) hlen
    simpa [hp] using hamount hs
  · intro hs
    have hp := Nat.lt_of_lt_of_le ((positions_lt s).2 hs) hlen
    simpa [hp] using hpid hs

end Incomplete

theorem finalize_deposit_words :
    (delivered referenceSdk .vaultDeposit [wordOf (10 ^ 18)]).amount ∈ [wordOf (10 ^ 18)] :=
  ((finalize_any_words referenceSdk (parsed_oneTokenDeposit passiveStEth.address) []).2.2.2
    (by decide)).1 (by decide)

/-- A deposit without its argument is confirmed, and shown with the amount zero. -/
theorem finalize_deposit_without_words :
    parsed referenceSdk (initCall stakedaoVaultDepositSelector passiveStEth.address) .zero [] =
      some (initialContext .vaultDeposit) ∧
    (handleFinalize ⟨0, .generic, .error⟩ (initialContext .vaultDeposit)).1.result = .ok ∧
    ¬ headWords .vaultDeposit ≤ ([] : List Word).length ∧
    cstr (handleQueryContractUi referenceSdk (uiQuery (callTo passiveStEth.address) 2 79)
      (initialContext .vaultDeposit)).state.1.msg.bytes = literal "0 steCRV" := by
  refine ⟨?_, rfl, by decide, by decide +kernel⟩
  rw [parsed_initCall]
  rfl

end StakedaoPlugin
