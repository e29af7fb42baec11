import StakedaoPlugin.Screens

/-! The queries that present a parsed transaction: what they show does not
depend on earlier queries, and every announced screen is one the plugin knows. -/
namespace StakedaoPlugin
open CMemory History

section Titles
variable (sdk : Sdk) (msg : EthQueryContractUI) (context : StakedaoParameters)

def titles : List String :=
  ["Strategy", "Rewards", "Pool", "LP Farming PID", "Want", "Receive", "Amount", "Id"]

/-- The result is kept and one of the titles is copied. -/
def Titled (o : EthQueryContractUI) : Prop :=
  o.result = msg.result ∧ ∃ t ∈ titles, o.title = msg.title.strlcpy (literal t)

theorem titled_amountToMsg (title : String) (amount : List UInt8) (decimals : UInt8)
    (ticker : List UInt8) (h : title ∈ titles) :
    Titled msg (amountToMsg sdk (setTitle title msg) amount decimals ticker).state := by
  simp only [amountToMsg]
  split
  · exact ⟨rfl, title, h, rfl⟩
  · exact ⟨rfl, title, h, rfl⟩

theorem titled_render (content : Content) {title : String} (h : title ∈ titles) :
    Titled msg (content.render sdk title msg context).state := by
  cases content with
  | text s => exact ⟨rfl, title, h, rfl⟩
  | name f => exact ⟨rfl, title, h, rfl⟩
  | amountIn f =>
    refine ⟨?_, "Amount", by decide, ?_⟩ <;> simp [Content.render, setTickerAmount, setTitle]
  | amount ticker => exact titled_amountToMsg sdk msg title _ _ _ h
  | value ticker => exact titled_amountToMsg sdk msg title _ _ _ h
  | identifier => exact titled_amountToMsg sdk msg title _ _ _ h
  | contract => exact ⟨rfl, "Strategy", by decide, rfl⟩

theorem screens_titles (s : StakedaoSelector) : ∀ screen ∈ screens s, screen.title ∈ titles := by
  cases s <;> decide

/-- No operation takes a default of the switches. -/
theorem titled_showScreen (s : StakedaoSelector) (hs : context.selectorIndex = s.toIndex)
    (hi : msg.screenIndex.toNat < 4) : Titled msg (showScreen sdk msg context).state := by
  have hlt : msg.screenIndex.toNat < (screens s).length := by rwa [screens_length]
  have hscreen := List.getElem?_eq_getElem hlt
  rw [showScreen_eq_render sdk msg hs hscreen]
  exact titled_render sdk msg context _ (screens_titles s _ (List.mem_of_getElem? hscreen))

theorem numScreens_le (s : StakedaoSelector) : numScreens s ≤ 4 := by
  cases s <;> decide

theorem titles_ne_nil : ∀ t ∈ titles, cstr (literal t) ≠ [] := by decide

/-- Every announced screen succeeds and has one of the titles, cut to its buffer. -/
theorem screen_titled (s : StakedaoSelector) (hs : context.selectorIndex = s.toIndex)
    (hi : msg.screenIndex.toNat < numScreens s) :
    (handleQueryContractUi sdk msg context).state.1.result = .ok ∧
      ∃ t ∈ titles, cstr (handleQueryContractUi sdk msg context).state.1.title.bytes =
        (cstr (literal t)).take (msg.title.length - 1) := by
  have hi' : (cleared msg).screenIndex.toNat < 4 := Nat.lt_of_lt_of_le hi (numScreens_le s)
  have hsel : (refresh context msg.txContent.destination).selectorIndex = s.toIndex :=
    (sameCall_refresh context _).selectorIndex.trans hs
  obtain ⟨hr, t, ht, htitle⟩ := titled_showScreen sdk (cleared msg) _ s hsel hi'
  rw [handleQueryContractUi_eq, Outcome.state_map]
  refine ⟨hr, t, ht, ?_⟩
  rw [htitle]
  exact Buffer.cstr_strlcpy msg.title (literal t)

end Titles

/-- A query as the Ethereum app hands it over; the buffers hold anything. -/
def handed (tx : TxContent) (screenIndex : UInt8) (title msg : List UInt8)
    (result : PluginResult) : EthQueryContractUI :=
  ⟨tx, screenIndex, ⟨title, false⟩, ⟨msg, false⟩, result⟩

/-- What the Ethereum app sees of a query. -/
def shown (o : Outcome (EthQueryContractUI × StakedaoParameters)) :
    Outcome (List UInt8 × List UInt8 × PluginResult) :=
  o.map fun p => (p.1.title.bytes, p.1.msg.bytes, p.1.result)

theorem shown_map (o : Outcome EthQueryContractUI) (context : StakedaoParameters) :
    shown (o.map fun m => (m, context)) =
      o.map fun m => (m.title.bytes, m.msg.bytes, m.result) := by
  cases o <;> rfl

section Results
variable (sdk : Sdk) {init : EthPluginInitContract} {ws : List Word}

theorem parsed_unique {c₁ c₂ d₁ d₂ : StakedaoParameters} (h₁ : parsed sdk init c₁ ws = some d₁)
    (h₂ : parsed sdk init c₂ ws = some d₂) : d₁ = d₂ := by
  have hsup := supported_of_parsed sdk h₁
  rw [parsed_eq sdk init c₁ ws hsup] at h₁
  rw [parsed_eq sdk init c₂ ws hsup, h₁] at h₂
  exact Option.some.inj h₂

/-- Neither the context before the transaction nor the queries made so far can
be told from what a query shows, and no query changes the parsed call. -/
theorem shown_depends_on_transaction (tx : TxContent) (qs₁ qs₂ : List Query)
    (hq₁ : ∀ q ∈ qs₁, q.About tx) (hq₂ : ∀ q ∈ qs₂, q.About tx)
    {c₁ c₂ d₁ d₂ : StakedaoParameters} (h₁ : parsed sdk init c₁ ws = some d₁)
    (h₂ : parsed sdk init c₂ ws = some d₂) (screenIndex : UInt8)
    (title₁ title₂ msg₁ msg₂ : List UInt8) (r₁ r₂ : PluginResult)
    (ht : title₁.length = title₂.length) (hm : msg₁.length = msg₂.length) :
    shown (handleQueryContractUi sdk (handed tx screenIndex title₁ msg₁ r₁)
        (run (present sdk) qs₁ d₁)) =
      shown (handleQueryContractUi sdk (handed tx screenIndex title₂ msg₂ r₂)
        (run (present sdk) qs₂ d₂)) ∧
    ∀ (q : Query) (c : StakedaoParameters), SameCall c (present sdk q c) := by
  refine ⟨?_, fun q c => sameCall_present c sdk q⟩
  obtain rfl := parsed_unique sdk h₁ h₂
  have hc : cleared (handed tx screenIndex title₁ msg₁ r₁) =
      cleared (handed tx screenIndex title₂ msg₂ r₂) := by
    simp only [cleared, handed, Buffer.memset, Buffer.length, ht, hm]
  -- each run ends in the context that one lookup makes of the parsed call
  have hr₁ := refresh_run_present d₁ sdk tx qs₁ hq₁
  have hr₂ := refresh_run_present d₁ sdk tx qs₂ hq₂
  rw [handleQueryContractUi_eq, handleQueryContractUi_eq, hc]
  simp only [handed, hr₁, hr₂]

theorem shown_deposit_depends_on_transaction :
    shown (handleQueryContractUi referenceSdk
        (handed (callTo stakedaoNftBoost) 2 (List.replicate 40 1) (List.replicate 79 7) .error)
        (run (present referenceSdk)
          [.ui (uiQuery (callTo stakedaoNftBoost) 9 79), .finalize ⟨0, .generic, .error⟩]
          (delivered referenceSdk .vaultDeposit [maxUint]))) =
      shown (handleQueryContractUi referenceSdk
        (handed (callTo stakedaoNftBoost) 2 (List.replicate 40 0) (List.replicate 79 0) .ok)
        (run (present referenceSdk) [] (delivered referenceSdk .vaultDeposit [maxUint]))) := by
  have hparsed (context : StakedaoParameters) :
      parsed referenceSdk (initCall stakedaoVaultDepositSelector stakedaoNftBoost) context
        [maxUint] = some (delivered referenceSdk .vaultDeposit [maxUint]) := by
    have hs : chosen stakedaoVaultDepositSelector stakedaoNftBoost = .vaultDeposit := rfl
    rw [parsed_initCall, hs]
    decide +kernel
  exact (shown_depends_on_transaction referenceSdk (callTo stakedaoNftBoost)
    [.ui (uiQuery (callTo stakedaoNftBoost) 9 79), .finalize ⟨0, .generic, .error⟩] []
    (by simp [Query.About, uiQuery]) (by simp) (hparsed (sdtContext maxUint)) (hparsed .zero)
    2 _ _ _ _ .error .ok (by simp) (by simp)).1

/-- The handlers agree: on every word the parser stays on the chain of the chosen
operation, and every query it announces takes a branch written for it. -/
theorem handlers_agree {c₀ : StakedaoParameters}
    (hok : (handleInitContract sdk init c₀).1.result = .ok) :
    let s := chosen init.selector init.txContent.destination
    (headWords s = 0 → ∀ m : EthPluginProvideParameter,
      handleProvideParameter sdk m (handleInitContract sdk init c₀).2 =
        ({ m with result := .error }, (handleInitContract sdk init c₀).2)) ∧
    (headWords s ≠ 0 → ∀ ws, ∃ c, parsed sdk init c₀ ws = some c ∧ OnChain sdk s ws c) ∧
    ∀ ws c, parsed sdk init c₀ ws = some c → ∀ qs : List Query,
      (∀ m, (handleFinalize m (run (present sdk) qs c)).1.result = .ok) ∧
      (∀ m, (handleQueryContractId m (run (present sdk) qs c)).1.result = .ok) ∧
      ∀ fin ui, ui.screenIndex < (handleFinalize fin (run (present sdk) qs c)).1.numScreens →
        let o := (handleQueryContractUi sdk ui (run (present sdk) qs c)).state.1
        o.result = .ok ∧
          (∃ t ∈ titles, cstr o.title.bytes = (cstr (literal t)).take (ui.title.length - 1)) ∧
          (2 ≤ ui.title.length → cstr o.title.bytes ≠ []) := by
  intro s
  have hsup := (handleInitContract_ok_iff sdk init c₀).mp hok
  have hinit := handleInitContract_supported sdk init c₀ hsup
  refine ⟨?_, ?_, ?_⟩
  · intro h m
    rw [hinit]
    exact handleProvideParameter_noParams sdk s _ m h rfl
  · intro h ws
    rw [parsed_eq sdk init c₀ ws hsup]
    exact provideParameters_initial sdk s ws h
  · intro ws c hc qs
    have hs := selectorIndex_run sdk hc qs
    refine ⟨handleFinalize_result _, fun m => handleQueryContractId_result _ _ m hs, ?_⟩
    intro fin ui hui
    have hi : ui.screenIndex.toNat < numScreens s := by
      rw [← handleFinalize_numScreens s _ fin hs]
      exact hui
    obtain ⟨hres, t, ht, htitle⟩ := screen_titled sdk ui _ s hs hi
    refine ⟨hres, ⟨t, ht, htitle⟩, ?_⟩
    intro hlen hnil
    rw [htitle, List.take_eq_nil_iff] at hnil
    cases hnil with
    | inl h => omega
    | inr h => exact titles_ne_nil t ht h

end Results

/-- A claim whose proof has one word: three words, the offset, the length and the proof. -/
theorem handlers_agree_claim :
    ∃ c, parsed referenceSdk (initCall stakedaoRewardsClaimSelector stakedaoNftBoost) .zero
        (List.replicate 6 maxUint) = some c ∧
      OnChain referenceSdk (chosen stakedaoRewardsClaimSelector stakedaoNftBoost)
        (List.replicate 6 maxUint) c :=
  (handlers_agree referenceSdk (initCall_ok stakedaoRewardsClaimSelector stakedaoNftBoost .zero)).2.1
    (by decide +kernel) (List.replicate 6 maxUint)

end StakedaoPlugin
