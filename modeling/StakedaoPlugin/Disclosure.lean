import StakedaoPlugin.Replies

/-! What the screens tell of the calldata: when two transactions with the same kind
of screens look the same on every one of them. -/
namespace StakedaoPlugin
open CMemory DecimalText History Simulation

section Disclosure
variable {sdk : Sdk} {t u : Signing} {ui : EthQueryContractUI}

/-- The message buffer has room for every screen, and no name that was looked up
fills its field to the end. -/
structure Roomy (sdk : Sdk) (t : Signing) (ui : EthQueryContractUI) : Prop where
  buffer : MsgBuffer ui
  wide : 117 ≤ ui.msg.length
  contract : 2 + (sdk.getEthAddressStringFromBinary ui.txContent.destination 0).length ≤
    ui.msg.length
  names : btcPool.address ∉ t.destinations ++ [ui.txContent.destination]

/-- No operation has a ticker of its own that is longer than these. -/
theorem screens_tickers (s : StakedaoSelector) : ∀ screen ∈ screens s, ∀ ticker,
    screen.content = .amount ticker ∨ screen.content = .value ticker →
      ticker = "xSDT" ∨ ticker = "ETH" := by
  cases s <;> simp [screens, strategyScreens]

theorem Roomy.fits (h : Roomy sdk t ui) (hu : u.destinations = t.destinations) {screen : Screen}
    (hmem : screen ∈ screens u.operation) :
    screen.content.Fits sdk (u.look ui.txContent.destination) ui.txContent ui.msg.length := by
  have hnames : btcPool.address ∉ (u.look ui.txContent.destination).destinations := by
    rw [Signing.look, hu]
    exact h.names
  have htickers (ticker : String)
      (ht : screen.content = .amount ticker ∨ screen.content = .value ticker) :
      LeavesRoom (literal ticker) ui.msg.length := by
    have hshort : ∀ x ∈ ["xSDT", "ETH"], (literal x).length < 117 := by decide +kernel
    have hlt := hshort ticker (by simpa using screens_tickers u.operation screen hmem ticker ht)
    exact Or.inr (Nat.lt_of_lt_of_le hlt h.wide)
  cases hcontent : screen.content with
  | name f => exact name_terminated f hnames
  | amountIn f =>
    have hle := decimals_le (u.look ui.txContent.destination)
    have hlt := decimalText_beNat_length_lt (u.look ui.txContent.destination).amount.toList _
      (by simp) hle
    exact amountFits_of_wide _ hlt h.wide
  | contract => exact h.contract
  | text s => trivial
  | amount ticker => exact htickers ticker (Or.inl hcontent)
  | value ticker => exact htickers ticker (Or.inr hcontent)
  | identifier => trivial

/-- The decimals that an operation begins with can be read off its screens. -/
theorem initialContext_decimals (s : StakedaoSelector) :
    (initialContext s).decimals =
      if ⟨"LP Farming PID", .identifier⟩ ∈ screens s then 18 else 0 := by
  cases s <;> decide

/-- A query is answered with the title and the text of its screen. -/
theorem displays_query (hsdk : sdk.Lawful) {c : StakedaoParameters} (hc : Represents sdk c u)
    (hdestinations : u.destinations = t.destinations) (hroomy : Roomy sdk t ui) (i : UInt8)
    {screen : Screen} (hscreen : (screens u.operation)[i.toNat]? = some screen) :
    ∃ o, Displays { ui with screenIndex := i } screen.title
        (screen.content.shown sdk (u.look ui.txContent.destination) ui.txContent ui.msg.length) o ∧
      (plugin sdk).answer (some (.message (.queryContractUi { ui with screenIndex := i }))) c =
        o.map fun m => answered (.queryContractUi m) := by
  have hagrees := agrees_replyMessage hsdk hc (.queryContractUi { ui with screenIndex := i })
  have hfits := hroomy.fits hdestinations (List.mem_of_getElem? hscreen)
  have hlook : (screens (u.look ui.txContent.destination).operation)[i.toNat]? = some screen :=
    hscreen
  have hreply : (u.look ui.txContent.destination).replyUi sdk { ui with screenIndex := i } =
      .screen { ui with screenIndex := i } screen.title
        (screen.content.shown sdk (u.look ui.txContent.destination) ui.txContent
          ui.msg.length) := by
    simp only [Signing.replyUi, hlook]
    exact if_pos ⟨hroomy.buffer.pos, hroomy.buffer.le, hroomy.buffer.stray, hfits⟩
  rw [Signing.replyMessage, hreply] at hagrees
  exact hagrees

end Disclosure

end StakedaoPlugin
