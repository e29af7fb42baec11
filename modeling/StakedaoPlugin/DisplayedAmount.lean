import StakedaoPlugin.DisplayedNames

/-! The amount screen of a parsed call: the amount word of the calldata, in the
units of the contract that is called. -/
namespace StakedaoPlugin
open CMemory DecimalText History

section Units
variable {sdk : Sdk} {s : StakedaoSelector} (ui : EthQueryContractUI)
  {context : StakedaoParameters}

/-- A matched strategy fills the decimals and all names, since no pool overrides it. -/
theorem refresh_strategy (context : StakedaoParameters) {destination : Address}
    {v : StakedaoStrategy} (hv : strategyAt destination = some v) :
    (refresh context destination).decimals = v.decimals ∧
      ∀ f : NameField, f.read (refresh context destination) = f.ofStrategy v := by
  constructor
  · rw [refresh_eq, hv]
    rfl
  · intro f
    rw [NameField.read_refresh, NameField.entryName, poolAt_of_strategyAt hv, hv]
    rfl

theorem handleQueryContractUi_ticker (hs : context.selectorIndex = s.toIndex) {f : NameField}
    (hf : tickerField s = some f) (hi : ui.screenIndex.toNat = 2) :
    handleQueryContractUi sdk ui context =
      (setTickerAmount sdk (cleared ui) (refresh context ui.txContent.destination)
        (f.read (refresh context ui.txContent.destination))).map
          fun m => (m, refresh context ui.txContent.destination) := by
  have hs' := (sameCall_refresh context ui.txContent.destination).selectorIndex.trans hs
  rw [handleQueryContractUi_eq, showScreen_ticker sdk (cleared ui) hs' hf hi]

/-- Where an amount in a ticker is shown, its decimals and its ticker are those
of one strategy, found at the destination. -/
def UnitsKnown (sdk : Sdk) (s : StakedaoSelector) (ui : EthQueryContractUI)
    (context : StakedaoParameters) : Prop :=
  ∀ f, tickerField s = some f → ¬ IsLp s → ∀ m c,
    handleQueryContractUi sdk ui context = .returned (m, c) → m.result = .ok →
    ∃ v ∈ stakedaoStrategies, v.address = ui.txContent.destination ∧
      copyAmountWithTicker sdk context.amount.toList v.decimals (f.ofStrategy v).toList
        (cleared ui).msg (UInt8.ofNat (cleared ui).msg.length) = .returned m.msg

theorem setTickerAmount_eq (msg : EthQueryContractUI) (ticker : Ticker) :
    setTickerAmount sdk msg context ticker =
      (copyAmountWithTicker sdk context.amount.toList context.decimals ticker.toList msg.msg
        (UInt8.ofNat msg.msg.length)).map fun out => { setTitle "Amount" msg with msg := out } := rfl

theorem unitsKnown_of_strategy (hs : context.selectorIndex = s.toIndex)
    (hi : ui.screenIndex.toNat = 2) {v : StakedaoStrategy}
    (hv : strategyAt ui.txContent.destination = some v) : UnitsKnown sdk s ui context := by
  intro f hf _ m c hm _
  obtain ⟨hmem, ha⟩ := strategyAt_eq_some hv
  refine ⟨v, hmem, ha, ?_⟩
  obtain ⟨hdec, hname⟩ := refresh_strategy context hv
  rw [handleQueryContractUi_ticker ui hs hf hi, setTickerAmount_eq, hdec, hname,
    (sameCall_refresh context _).amount] at hm
  obtain ⟨m', hm', hpair⟩ := Outcome.map_eq_returned hm
  obtain ⟨out, hout, hmsg⟩ := Outcome.map_eq_returned hm'
  have he : m'.msg = m.msg := congrArg (fun p => p.1.msg) hpair
  rw [← he, ← hmsg]
  exact hout

/-- Without a strategy the amount is shown all the same. -/
theorem amount_shown (hsdk : sdk.Lawful) (hs : context.selectorIndex = s.toIndex) {f : NameField}
    (hf : tickerField s = some f) (hi : ui.screenIndex.toNat = 2)
    (hdec : context.decimals.toNat ≤ 18) :
    ∃ m, handleQueryContractUi sdk ui context =
        .returned (m, refresh context ui.txContent.destination) ∧ m.result = .ok := by
  have hdec' := decimals_refresh_le context ui.txContent.destination hdec
  have htext := amountToString_tmpBuffer hsdk
    (refresh context ui.txContent.destination).amount hdec'
  rw [handleQueryContractUi_ticker ui hs hf hi, setTickerAmount_eq,
    copyAmountWithTicker_eq hsdk htext]
  exact ⟨_, rfl, rfl⟩

/-- After any run, the units of the amount screen are known exactly for the
destinations of the strategy table, where the screen shows an amount with a ticker. -/
theorem units_known_iff (hsdk : sdk.Lawful) {init : EthPluginInitContract}
    {c₀ c : StakedaoParameters} {ws : List Word} (h : parsed sdk init c₀ ws = some c)
    (qs : List Query) (hi : ui.screenIndex.toNat = 2) :
    UnitsKnown sdk (chosen init.selector init.txContent.destination) ui
        (run (present sdk) qs c) ↔
      (strategyAt ui.txContent.destination).isSome ∨
        tickerField (chosen init.selector init.txContent.destination) = none ∨
        IsLp (chosen init.selector init.txContent.destination) := by
  have hs := selectorIndex_run sdk h qs
  constructor
  · intro hk
    by_contra hn
    obtain ⟨hnone, hticker, hlp⟩ := not_or.mp hn |>.imp_right not_or.mp
    obtain ⟨f, hf⟩ := Option.ne_none_iff_exists'.mp hticker
    obtain ⟨m, hm, hok⟩ := amount_shown ui hsdk hs hf hi (decimals_run_le sdk h qs)
    obtain ⟨v, hv, ha, -⟩ := hk f hf hlp m _ hm hok
    rw [← ha, strategyAt_address hv] at hnone
    exact hnone rfl
  · rintro (hv | hnone | hlp)
    · obtain ⟨v, hv⟩ := Option.isSome_iff_exists.mp hv
      exact unitsKnown_of_strategy ui hs hi hv
    · intro f hf
      rw [hnone] at hf
      cases hf
    · intro f _ hn
      exact absurd hlp hn

/-- The query returns with this text, and nothing is written past its buffer. -/
def Shows (sdk : Sdk) (ui : EthQueryContractUI) (context : StakedaoParameters)
    (text : List UInt8) : Prop :=
  ∃ m, handleQueryContractUi sdk ui context =
      .returned (m, refresh context ui.txContent.destination) ∧
    m.result = .ok ∧ m.msg.stray = false ∧ cstr m.msg.bytes = text

/-- Where amount and ticker fit, the amount screen shows them. -/
theorem shows_ticker (hsdk : sdk.Lawful) (hs : context.selectorIndex = s.toIndex)
    {f : NameField} (hf : tickerField s = some f) (hi : ui.screenIndex.toNat = 2)
    (hui : MsgBuffer ui) {decimals : UInt8} {ticker : Ticker}
    (hdec : (refresh context ui.txContent.destination).decimals = decimals)
    (hle : decimals.toNat ≤ 18)
    (hticker : f.read (refresh context ui.txContent.destination) = ticker)
    (hfits : AmountFits (decimalText decimals.toNat (beNat context.amount.toList)) ticker
      ui.msg.length) :
    Shows sdk ui context
      (withTicker (decimalText decimals.toNat (beNat context.amount.toList)) ticker) := by
  have htext := amountToString_tmpBuffer hsdk context.amount hle
  generalize decimalText decimals.toNat (beNat context.amount.toList) = text at htext hfits ⊢
  rw [← hdec, ← (sameCall_refresh context ui.txContent.destination).amount] at htext
  obtain ⟨m, hset, hok, -, -, hstray, hshown⟩ := cstr_setTickerAmount hsdk ticker htext hui
  obtain ⟨hin, hwhole⟩ := (amountFits_iff ticker _ hui.pos).mp hfits
  refine ⟨m, ?_, hok, ?_, hshown.trans hwhole⟩
  · rw [handleQueryContractUi_ticker ui hs hf hi, hticker, hset]
    rfl
  · rw [hstray]
    simpa using hin

theorem shows_strategy (hsdk : sdk.Lawful) (hs : context.selectorIndex = s.toIndex)
    {f : NameField} (hf : tickerField s = some f) (hi : ui.screenIndex.toNat = 2)
    (hui : MsgBuffer ui) {v : StakedaoStrategy}
    (hv : strategyAt ui.txContent.destination = some v)
    (hlen : (decimalText v.decimals.toNat (beNat context.amount.toList)).length + 17 ≤
      ui.msg.length) :
    Shows sdk ui context
      (withTicker (decimalText v.decimals.toNat (beNat context.amount.toList)) (f.ofStrategy v)) := by
  obtain ⟨hdec, hname⟩ := refresh_strategy context hv
  have hmem := (strategyAt_eq_some hv).1
  have hle : v.decimals.toNat ≤ 18 := by
    rw [strategies_decimals v hmem]
    decide
  exact shows_ticker ui hsdk hs hf hi hui hdec hle (hname f)
    ⟨hlen, fun _ => strategy_names_terminated f v hmem⟩

theorem shows_reward (hsdk : sdk.Lawful)
    (hs : context.selectorIndex = StakedaoSelector.rewardsClaim.toIndex)
    (hi : ui.screenIndex.toNat = 2) (hui : MsgBuffer ui)
    (hroom : (literal "xSDT").length < ui.msg.length) {text : List UInt8}
    (htext : sdk.amountToString context.amount.toList 18 (literal "xSDT")
      (UInt8.ofNat ui.msg.length) = some text)
    (hnul : ∀ b ∈ text, b ≠ 0) : Shows sdk ui context text := by
  have hsame := sameCall_refresh context ui.txContent.destination
  have hi' : (cleared ui).screenIndex.toNat = 2 := hi
  have hsize : LeavesRoom (literal "xSDT") (UInt8.ofNat ui.msg.length).toNat := by
    rw [hui.toNat_size]
    exact Or.inr hroom
  obtain ⟨m, hm, hok, -, -, hstray, hshown⟩ := cstr_amountToMsg hsdk "Amount" hsize htext
  refine ⟨m, ?_, hok, hstray.trans hui.stray, hshown.trans (cstr_eq_self hnul)⟩
  rw [← hsame.amount] at hm
  simp only [handleQueryContractUi_eq, showScreen, hi', showAmount,
    hsame.selectorIndex.trans hs, StakedaoSelector.ofIndex?_toIndex, setRewardAmount, hm,
    Outcome.map_returned]

/-- The want that the tables hold for a contract, or an empty field. -/
def wantAt (destination : Address) : Ticker :=
  (NameField.want.entryName destination).getD (Vector.replicate 16 0)

/-- An LP operation shows 18 decimals at any contract, also at one of no table. -/
theorem shows_lp (hsdk : sdk.Lawful) {init : EthPluginInitContract} {c₀ c : StakedaoParameters}
    {ws : List Word} (hc : parsed sdk init c₀ ws = some c)
    (hlp : IsLp (chosen init.selector init.txContent.destination)) (qs : List Query)
    (hqs : ∀ q ∈ qs, q.About ui.txContent) (hi : ui.screenIndex.toNat = 2) (hui : MsgBuffer ui)
    (hfits : AmountFits (decimalText 18 (beNat c.amount.toList)) (wantAt ui.txContent.destination)
      ui.msg.length) :
    Shows sdk ui (run (present sdk) qs c)
      (withTicker (decimalText 18 (beNat c.amount.toList)) (wantAt ui.txContent.destination)) := by
  have hf : tickerField (chosen init.selector init.txContent.destination) = some .want := by
    rcases hlp with h | h <;> rw [h] <;> rfl
  have hdec : (refresh c ui.txContent.destination).decimals = 18 := by
    have h18 : c.decimals = 18 := by
      rw [decimals_parsed sdk hc]
      exact if_pos hlp
    rw [refresh_eq]
    cases hv : strategyAt ui.txContent.destination with
    | none => exact h18
    | some v => exact strategies_decimals v (strategyAt_eq_some hv).1
  have hticker : NameField.want.read (refresh c ui.txContent.destination) =
      wantAt ui.txContent.destination := by
    rw [NameField.read_refresh, read_parsed sdk hc, wantAt]
  have hamount := (sameCall_run c sdk qs).amount
  have hrefresh := refresh_run_present c sdk ui.txContent qs hqs
  rw [← hrefresh] at hdec hticker
  have hfits' : AmountFits (decimalText (18 : UInt8).toNat
      (beNat (run (present sdk) qs c).amount.toList)) (wantAt ui.txContent.destination)
      ui.msg.length := by
    rw [hamount]
    exact hfits
  have hshow := shows_ticker ui hsdk (selectorIndex_run sdk hc qs) hf hi hui hdec (by decide)
    hticker hfits'
  rwa [hamount] at hshow

/-- What screen 2 owes to an amount word after some queries. -/
structure AmountScreen (sdk : Sdk) (s : StakedaoSelector) (amount : Word) (qs : List Query)
    (ui : EthQueryContractUI) (context : StakedaoParameters) : Prop where
  strategy : ∀ f v, tickerField s = some f → strategyAt ui.txContent.destination = some v →
    (decimalText v.decimals.toNat (beNat amount.toList)).length + 17 ≤ ui.msg.length →
    Shows sdk ui context
      (withTicker (decimalText v.decimals.toNat (beNat amount.toList)) (f.ofStrategy v))
  lp : IsLp s → (∀ q ∈ qs, q.About ui.txContent) →
    AmountFits (decimalText 18 (beNat amount.toList)) (wantAt ui.txContent.destination)
      ui.msg.length →
    Shows sdk ui context
      (withTicker (decimalText 18 (beNat amount.toList)) (wantAt ui.txContent.destination))
  reward : s = .rewardsClaim → (literal "xSDT").length < ui.msg.length →
    ∀ text, (∀ b ∈ text, b ≠ 0) →
    sdk.amountToString amount.toList 18 (literal "xSDT") (UInt8.ofNat ui.msg.length) = some text →
    Shows sdk ui context text

/-- From the calldata to the screen: the slot keeps the amount word of the ABI
encoding along all queries, and screen 2 shows it in the units of the contract. -/
theorem amount_end_to_end (hsdk : sdk.Lawful) {init : EthPluginInitContract}
    {c₀ : StakedaoParameters} (hok : (handleInitContract sdk init c₀).1.result = .ok)
    (hchosen : chosen init.selector init.txContent.destination = s) (hs : ShowsAmount s)
    {ws : List Word} (habi : IsAbiEncoding s ws) :
    ∃ c w, parsed sdk init c₀ ws = some c ∧ ws[amountPosition s]? = some w ∧
      ∀ qs : List Query, (run (present sdk) qs c).amount = w ∧
        ∀ ui : EthQueryContractUI, ui.screenIndex.toNat = 2 → MsgBuffer ui →
          AmountScreen sdk s w qs ui (run (present sdk) qs c) := by
  subst hchosen
  have hsup := (handleInitContract_ok_iff sdk init c₀).mp hok
  have hwords : headWords (chosen init.selector init.txContent.destination) ≠ 0 := by
    have hp := (positions_lt _).1 hs
    omega
  obtain ⟨c, hc⟩ := exists_parsed sdk c₀ hsup hwords ws
  obtain ⟨w, hw, hword⟩ := wordAt_amount_of_abi hs habi
  have hcw : c.amount = w := by
    rw [amount_parsed hc hs, hword]
    rfl
  refine ⟨c, w, hc, hw, ?_⟩
  intro qs
  have hindex := selectorIndex_run sdk hc qs
  have hamount : (run (present sdk) qs c).amount = w :=
    (sameCall_run c sdk qs).amount.trans hcw
  refine ⟨hamount, ?_⟩
  intro ui hi hui
  constructor
  · intro f v hf hv hlen
    have hshow := shows_strategy ui hsdk hindex hf hi hui hv (by rw [hamount]; exact hlen)
    rwa [hamount] at hshow
  · intro hlp hqs hfits
    rw [← hcw] at hfits ⊢
    exact shows_lp ui hsdk hc hlp qs hqs hi hui hfits
  · intro hr hroom text hnul htext
    rw [← hamount] at htext
    exact shows_reward ui hsdk (hr ▸ hindex) hi hui hroom htext hnul

end Units

def oneTokenDeposit : StakedaoParameters := delivered referenceSdk .vaultDeposit [wordOf (10 ^ 18)]

theorem parsed_oneTokenDeposit (destination : Address) :
    parsed referenceSdk (initCall stakedaoVaultDepositSelector destination) .zero
      [wordOf (10 ^ 18)] = some oneTokenDeposit := by
  have hc : chosen stakedaoVaultDepositSelector destination = .vaultDeposit := rfl
  rw [parsed_initCall, hc]
  decide +kernel

theorem units_known_first_strategy :
    UnitsKnown referenceSdk .vaultDeposit
      (uiQuery (callTo passiveStEth.address) 2 79) oneTokenDeposit :=
  (units_known_iff (uiQuery (callTo passiveStEth.address) 2 79) referenceSdk_lawful
    (parsed_oneTokenDeposit passiveStEth.address) [] rfl).mpr (Or.inl (by decide))

theorem amount_end_to_end_deposit :
    ∃ c w, parsed referenceSdk (initCall stakedaoVaultDepositSelector passiveStEth.address) .zero
        [wordOf (10 ^ 18)] = some c ∧ [wordOf (10 ^ 18)][0]? = some w ∧
      Shows referenceSdk (uiQuery (callTo passiveStEth.address) 2 79)
        (run (present referenceSdk) [.finalize ⟨0, .generic, .error⟩] c)
        (withTicker (decimalText 18 (beNat w.toList)) passiveStEth.want) := by
  have hs : chosen stakedaoVaultDepositSelector passiveStEth.address = .vaultDeposit := rfl
  have habi : IsAbiEncoding .vaultDeposit [wordOf (10 ^ 18)] := rfl
  obtain ⟨c, w, hc, hw, hrun⟩ := amount_end_to_end referenceSdk_lawful
    (initCall_ok stakedaoVaultDepositSelector passiveStEth.address .zero) hs (by decide) habi
  refine ⟨c, w, hc, hw, ?_⟩
  obtain rfl : wordOf (10 ^ 18) = w := Option.some.inj hw
  exact ((hrun _).2 (uiQuery (callTo passiveStEth.address) 2 79) rfl
    (msgBuffer_uiQuery _ 2 (by omega) (by omega))).strategy .want passiveStEth rfl rfl
      (by decide +kernel)

/-- At an address of neither table the raw integer is shown, without a ticker. -/
theorem units_unknown_unlisted :
    parsed referenceSdk (initCall stakedaoVaultDepositSelector anyTx.destination) .zero
        [wordOf (10 ^ 18)] = some oneTokenDeposit ∧
      cstr (handleQueryContractUi referenceSdk (uiQuery anyTx 2 79)
        oneTokenDeposit).state.1.msg.bytes = literal "1000000000000000000 " ∧
      ¬ UnitsKnown referenceSdk .vaultDeposit (uiQuery anyTx 2 79) oneTokenDeposit := by
  refine ⟨parsed_oneTokenDeposit _, by decide +kernel, ?_⟩
  intro h
  have hs : oneTokenDeposit.selectorIndex = StakedaoSelector.vaultDeposit.toIndex := rfl
  have hf : tickerField .vaultDeposit = some .want := rfl
  obtain ⟨m, hm, hok⟩ := amount_shown (uiQuery anyTx 2 79) referenceSdk_lawful hs hf rfl (by decide)
  obtain ⟨v, hv, ha, -⟩ := h .want rfl (by decide) m _ hm hok
  have hnone : ∀ v ∈ stakedaoStrategies, v.address ≠ anyTx.destination := by decide
  exact hnone v hv ha

end StakedaoPlugin
