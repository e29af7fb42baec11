import StakedaoPlugin.Arguments

/-! The names that the screens of a parsed call show, and the fields they are
read from. -/
namespace StakedaoPlugin
open CMemory History

section Names
variable (sdk : Sdk) {s : StakedaoSelector} (ui : EthQueryContractUI)
  {context : StakedaoParameters}

/-- The bytes of a name field end within the field. -/
def NamesTerminated (c : StakedaoParameters) : Prop := ∀ f : NameField, 0 ∈ (f.read c).toList

theorem strategy_names_terminated (f : NameField) :
    ∀ v ∈ stakedaoStrategies, 0 ∈ (f.ofStrategy v).toList := by
  cases f <;> decide +kernel

/-- All names of the pools are terminated, except one. -/
theorem pool_names_terminated (f : NameField) :
    ∀ p ∈ curvePools, p.address ≠ btcPool.address →
      ∀ name ∈ f.ofPool p, 0 ∈ name.toList := by
  have hnames : ∀ p ∈ curvePools, p.address ≠ btcPool.address →
      0 ∈ p.want.toList ∧ 0 ∈ p.pool.toList := by decide
  intro p hp hb name hname
  cases f with
  | strategy => cases hname
  | want =>
    obtain rfl : p.want = name := Option.some.inj hname
    exact (hnames p hp hb).1
  | vault =>
    obtain rfl : p.pool = name := Option.some.inj hname
    exact (hnames p hp hb).2

theorem btcPool_want : 0 ∉ btcPool.want.toList := by decide

theorem poolAt_btcPool : poolAt btcPool.address = some btcPool := by rfl

theorem entryName_terminated (f : NameField) {destination : Address} {name : Ticker}
    (hd : destination ≠ btcPool.address) (h : f.entryName destination = some name) :
    0 ∈ name.toList := by
  rw [NameField.entryName, Option.or_eq_some_iff] at h
  cases h with
  | inl hp =>
    obtain ⟨p, hp, hname⟩ := Option.bind_eq_some_iff.mp hp
    obtain ⟨hmem, ha⟩ := poolAt_eq_some hp
    exact pool_names_terminated f p hmem (by rw [ha]; exact hd) name hname
  | inr hs =>
    obtain ⟨v, hv, hname⟩ := Option.map_eq_some_iff.mp hs.2
    rw [← hname]
    exact strategy_names_terminated f v (strategyAt_eq_some hv).1

/-- The name in the last field is always terminated, of a pool as of a vault. -/
theorem vault_names_terminated {destination : Address} {name : Ticker}
    (h : NameField.vault.entryName destination = some name) : 0 ∈ name.toList := by
  have hp : ∀ p ∈ curvePools, 0 ∈ p.pool.toList := by decide
  rw [NameField.entryName, Option.or_eq_some_iff] at h
  cases h with
  | inl hpool =>
    obtain ⟨p, hat, hname⟩ := Option.bind_eq_some_iff.mp hpool
    obtain rfl : p.pool = name := Option.some.inj hname
    exact hp p (poolAt_eq_some hat).1
  | inr hstrategy =>
    obtain ⟨v, hv, rfl⟩ := Option.map_eq_some_iff.mp hstrategy.2
    exact strategy_names_terminated .vault v (strategyAt_eq_some hv).1

/-- One lookup keeps the names terminated, unless it meets that pool. -/
theorem namesTerminated_refresh {destination : Address} (hd : destination ≠ btcPool.address)
    (h : NamesTerminated context) : NamesTerminated (refresh context destination) := by
  intro f
  rw [NameField.read_refresh]
  cases hn : f.entryName destination with
  | none => exact h f
  | some name => exact entryName_terminated f hd hn

theorem not_namesTerminated_btcPool :
    ¬ NamesTerminated (refresh context btcPool.address) := by
  intro h
  have hw := h .want
  rw [NameField.read_refresh, NameField.entryName, poolAt_btcPool] at hw
  exact btcPool_want hw

/-- Behind a terminated field nothing is read. -/
theorem cstr_readFrom (f : NameField) (h : 0 ∈ (f.read context).toList) :
    cstr (f.readFrom context) = cstr (f.read context).toList := by
  cases f with
  | strategy => exact cstr_append_of_mem _ h
  | want => exact cstr_append_of_mem _ h
  | vault =>
    rw [NameField.readFrom, StakedaoParameters.fromVault, List.append_assoc]
    exact cstr_append_of_mem _ h

/-- A name screen shows what is read from the field, cut to the buffer. -/
theorem handleQueryContractUi_name (hs : context.selectorIndex = s.toIndex) {f : NameField}
    (hf : nameOnScreen s ui.screenIndex.toNat = some f) :
    ∃ m, handleQueryContractUi sdk ui context =
        .returned (m, refresh context ui.txContent.destination) ∧ m.result = .ok ∧
      cstr m.msg.bytes =
        (cstr (f.readFrom (refresh context ui.txContent.destination))).take (ui.msg.length - 1) := by
  have hs' := (sameCall_refresh context ui.txContent.destination).selectorIndex.trans hs
  obtain ⟨title, hshow⟩ := showScreen_name sdk (cleared ui) hs' hf
  rw [handleQueryContractUi_eq, hshow]
  exact ⟨_, rfl, rfl, Buffer.cstr_strlcpy ui.msg _⟩

/-- What a query owes to the names: fields that end, and texts that are the
names of the entry found. -/
structure NamesShown (s : StakedaoSelector) (ui : EthQueryContractUI)
    (context : StakedaoParameters) : Prop where
  terminated : NamesTerminated (refresh context ui.txContent.destination)
  text : ∀ f name, nameOnScreen s ui.screenIndex.toNat = some f →
    f.entryName ui.txContent.destination = some name →
    cstr (handleQueryContractUi sdk ui context).state.1.msg.bytes =
      (cstr name.toList).take (ui.msg.length - 1)

theorem namesShown_of_terminated (hs : context.selectorIndex = s.toIndex)
    (h : NamesTerminated (refresh context ui.txContent.destination)) :
    NamesShown sdk s ui context := by
  refine ⟨h, ?_⟩
  intro f name hf hname
  obtain ⟨m, hm, -, htext⟩ := handleQueryContractUi_name sdk ui hs hf
  rw [hm, Outcome.state_returned, htext, cstr_readFrom f (h f), NameField.read_refresh, hname]
  rfl

theorem read_parsed {init : EthPluginInitContract} {c₀ c : StakedaoParameters}
    {ws : List Word} (h : parsed sdk init c₀ ws = some c) (f : NameField) :
    f.read c = Vector.replicate 16 0 := by
  have hu := untouched_parsed sdk h
  simp only [untouched, initialContext, StakedaoParameters.zero, Prod.mk.injEq] at hu
  cases f with
  | strategy => exact hu.1
  | want => exact hu.2.1
  | vault => exact hu.2.2.1

theorem namesTerminated_parsed {init : EthPluginInitContract} {c₀ c : StakedaoParameters}
    {ws : List Word} (h : parsed sdk init c₀ ws = some c) : NamesTerminated c := by
  intro f
  rw [read_parsed sdk h f]
  decide

theorem namesTerminated_run (qs : List Query)
    (hqs : ∀ ui, .ui ui ∈ qs → ui.txContent.destination ≠ btcPool.address)
    (h : NamesTerminated context) : NamesTerminated (run (present sdk) qs context) := by
  refine run_present_invariant context sdk NamesTerminated qs h ?_
  intro ui hui c hc
  exact namesTerminated_refresh (hqs ui hui) hc

/-- In a run, every query shows terminated names exactly when none of them is
about the pool whose name fills its field. -/
theorem names_shown_iff {init : EthPluginInitContract} {c₀ c : StakedaoParameters}
    {ws : List Word} (h : parsed sdk init c₀ ws = some c) (qs : List Query) :
    (∀ before ui after, qs = before ++ .ui ui :: after →
      NamesShown sdk (chosen init.selector init.txContent.destination) ui
        (run (present sdk) before c)) ↔
    ∀ ui, .ui ui ∈ qs → ui.txContent.destination ≠ btcPool.address := by
  constructor
  · intro hall ui hui hd
    -- the lookup of that query itself leaves a want without a NUL
    obtain ⟨before, after, hqs⟩ := List.append_of_mem hui
    have hterm := (hall before ui after hqs).terminated
    rw [hd] at hterm
    exact not_namesTerminated_btcPool hterm
  · intro hqs before ui after he
    have hbefore : ∀ m, .ui m ∈ before → m.txContent.destination ≠ btcPool.address := by
      intro m hm
      exact hqs m (by rw [he]; exact List.mem_append_left _ hm)
    have hui : ui.txContent.destination ≠ btcPool.address := hqs ui (by simp [he])
    have hrun := namesTerminated_run sdk before hbefore (namesTerminated_parsed sdk h)
    exact namesShown_of_terminated sdk ui (selectorIndex_run sdk h before)
      (namesTerminated_refresh hui hrun)

end Names

/-- The slots after an `add_liquidity` of any pool. -/
def addedLiquidity : StakedaoParameters :=
  { delivered referenceSdk .curveAddL3 (List.replicate 4 maxUint) with
    nextParam := SelectorField.minAmount.toByte }

theorem parsed_liquidity (destination : Address) :
    parsed referenceSdk (initCall stakedaoCurveAddLiquidity3Selector destination) .zero
      (List.replicate 4 maxUint) = some addedLiquidity := by
  have hc : chosen stakedaoCurveAddLiquidity3Selector destination = .curveAddL3 := rfl
  rw [parsed_initCall, hc]
  decide +kernel

theorem names_shown_first_pool :
    NamesShown referenceSdk .curveAddL3 (uiQuery (callTo threeCrvPool.address) 1 79)
      addedLiquidity := by
  have hd : threeCrvPool.address ≠ btcPool.address := by decide
  exact (names_shown_iff referenceSdk (parsed_liquidity threeCrvPool.address)
    [.ui (uiQuery (callTo threeCrvPool.address) 1 79)]).mpr
      (by simpa [uiQuery, callTo] using hd) [] _ [] rfl

/-- The want of the pool runs into its name. -/
theorem names_run_together_btcPool :
    parsed referenceSdk (initCall stakedaoCurveAddLiquidity3Selector btcPool.address) .zero
        (List.replicate 4 maxUint) = some addedLiquidity ∧
      cstr (handleQueryContractUi referenceSdk (uiQuery (callTo btcPool.address) 1 79)
        addedLiquidity).state.1.msg.bytes = literal "renBTC/WBTC/sBTCBTC Pool" ∧
      ¬ NamesShown referenceSdk .curveAddL3 (uiQuery (callTo btcPool.address) 1 79)
        addedLiquidity := by
  refine ⟨parsed_liquidity _, by decide +kernel, ?_⟩
  intro h
  exact not_namesTerminated_btcPool h.terminated

end StakedaoPlugin
