import StakedaoPlugin.DisplayedNames
import StakedaoPlugin.Session

/-! What the screens of an operation are for: a title and what stands under it,
in terms of the transaction and the tables instead of the plugin's context. -/
namespace StakedaoPlugin
open CMemory DecimalText History

/-- The word that stands for the amount, or zero. -/
def Signing.amount (t : Signing) : Word :=
  (wordAt (copiesTrailing t.operation) (amountPosition t.operation) t.words).getD
    (Vector.replicate 32 0)

/-- What is kept of the word that stands for the identifier, or zero. -/
def Signing.identifier (t : Signing) : Ticker :=
  ((wordAt (decide (t.operation = .nftStake)) 0 t.words).map lowHalf).getD (Vector.replicate 16 0)

/-- What is read under the title from a message buffer of the given size; `none`
if the app throws instead of writing a text. -/
def Content.shown (sdk : Sdk) (t : Signing) (tx : TxContent) (size : Nat) :
    Content → Option (List UInt8)
  | .text s => some ((literal s).take (size - 1))
  | .name f => some ((cstr (t.name f).toList).take (size - 1))
  | .amountIn f =>
    some (withTicker (decimalText t.decimals.toNat (beNat t.amount.toList)) (t.name f))
  | .amount ticker =>
    (sdk.amountToString t.amount.toList 18 (literal ticker) (UInt8.ofNat size)).map cstr
  | .value ticker =>
    (sdk.amountToString tx.value.bytes 18 (literal ticker) (UInt8.ofNat size)).map cstr
  | .identifier =>
    (sdk.amountToString t.identifier.toList 0 [] (UInt8.ofNat size)).map fun _ =>
      decimalText 0 (beNat t.identifier.toList)
  | .contract => some (literal "0x" ++ cstr (sdk.getEthAddressStringFromBinary tx.destination 0))

/-- The texts that the plugin writes without asking for the size of the buffer
have room in it, a ticker leaves room for its amount, and a name ends within its
field. -/
def Content.Fits (sdk : Sdk) (t : Signing) (tx : TxContent) (size : Nat) : Content → Prop
  | .name f => 0 ∈ (t.name f).toList
  | .amountIn f =>
    AmountFits (decimalText t.decimals.toNat (beNat t.amount.toList)) (t.name f) size
  | .amount ticker | .value ticker => LeavesRoom (literal ticker) size
  | .contract => 2 + (sdk.getEthAddressStringFromBinary tx.destination 0).length ≤ size
  | .text _ | .identifier => True

instance (text : List UInt8) (ticker : Ticker) (size : Nat) :
    Decidable (AmountFits text ticker size) := inferInstanceAs (Decidable (_ ∧ _))

instance (sdk : Sdk) (t : Signing) (tx : TxContent) (size : Nat) (content : Content) :
    Decidable (content.Fits sdk t tx size) :=
  match content with
  | .name f => inferInstanceAs (Decidable (0 ∈ (t.name f).toList))
  | .amountIn f => inferInstanceAs (Decidable (AmountFits _ (t.name f) size))
  | .amount ticker | .value ticker =>
    inferInstanceAs (Decidable (LeavesRoom (literal ticker) size))
  | .contract => inferInstanceAs (Decidable (_ ≤ size))
  | .text _ | .identifier => inferInstanceAs (Decidable True)

section Filled
variable {sdk : Sdk} {ui : EthQueryContractUI} {m : EthQueryContractUI}

/-- A screen with this title and text, both cut to their buffers, and nothing
written outside of these. -/
structure Filled (ui : EthQueryContractUI) (title : String) (text : List UInt8)
    (m : EthQueryContractUI) : Prop where
  result : m.result = .ok
  title : cstr m.title.bytes = (cstr (literal title)).take (ui.title.length - 1)
  text : cstr m.msg.bytes = text
  titleStray : m.title.stray = ui.title.stray
  msgStray : m.msg.stray = ui.msg.stray

theorem filled_setTexts (ui : EthQueryContractUI) (title : String) (text : List UInt8) :
    Filled ui title ((cstr text).take (ui.msg.length - 1)) (setTexts title text (cleared ui)) where
  result := rfl
  title := Buffer.cstr_strlcpy ui.title (literal title)
  text := Buffer.cstr_strlcpy ui.msg text
  titleStray := Buffer.stray_strlcpy _ _
  msgStray := Buffer.stray_strlcpy _ _

theorem filled_amountToMsg (hsdk : sdk.Lawful) (title : String) {amount : List UInt8}
    {decimals : UInt8} {ticker text : List UInt8}
    (hroom : LeavesRoom ticker (UInt8.ofNat ui.msg.length).toNat)
    (h : sdk.amountToString amount decimals ticker (UInt8.ofNat ui.msg.length) = some text) :
    ∃ m, amountToMsg sdk (setTitle title (cleared ui)) amount decimals ticker = .returned m ∧
      Filled ui title (cstr text) m := by
  obtain ⟨m, hm, hok, htitle, -, hstray, hshown⟩ := cstr_amountToMsg hsdk title hroom h
  refine ⟨m, hm, hok, ?_, hshown, ?_, hstray⟩
  · rw [htitle]
    exact Buffer.cstr_strlcpy ui.title (literal title)
  · rw [htitle]
    exact Buffer.stray_strlcpy _ _

theorem thrown_amountToMsg (title : String) {amount : List UInt8} {decimals : UInt8}
    {ticker : List UInt8}
    (h : sdk.amountToString amount decimals ticker (UInt8.ofNat ui.msg.length) = none) :
    amountToMsg sdk (setTitle title (cleared ui)) amount decimals ticker =
      .thrown (setTitle title (cleared ui)) := by
  rw [amountToMsg_cleared, h]

/-- The prefix and the address string are one write. -/
theorem setStrategyUi_msg (sdk : Sdk) (msg : EthQueryContractUI) (context : StakedaoParameters) :
    (setStrategyUi sdk msg context).msg =
      msg.msg.write 0 (literal "0x" ++ sdk.getEthAddressStringFromBinary context.address 0) := by
  have h1 := Buffer.write_write msg.msg 0 [48] [120]
  have h2 := Buffer.write_write msg.msg 0 (literal "0x")
    (sdk.getEthAddressStringFromBinary context.address 0)
  rw [← h2]
  exact congrArg (fun b : Buffer => b.write 2 _) h1

theorem filled_setStrategyUi (context : StakedaoParameters)
    (hroom : 2 + (sdk.getEthAddressStringFromBinary context.address 0).length ≤ ui.msg.length) :
    Filled ui "Strategy"
      (literal "0x" ++ cstr (sdk.getEthAddressStringFromBinary context.address 0))
      (setStrategyUi sdk (cleared ui) context) := by
  have hx : ∀ b ∈ literal "0x", b ≠ 0 := by decide +kernel
  have hlen : (literal "0x" ++ sdk.getEthAddressStringFromBinary context.address 0).length ≤
      ui.msg.length := by
    rw [List.length_append]
    exact hroom
  refine ⟨rfl, Buffer.cstr_strlcpy ui.title _, ?_, Buffer.stray_strlcpy _ _, ?_⟩
  · rw [setStrategyUi_msg]
    have hb := Buffer.bytes_write_zero ui.msg.length _ ui.msg.stray hlen
    exact (congrArg cstr hb).trans (by rw [cstr_append_zeros, cstr_append _ hx])
  · rw [setStrategyUi_msg]
    refine Buffer.stray_write _ 0 _ ?_
    rw [Nat.zero_add]
    exact Nat.le_trans hlen (Nat.le_of_eq (Buffer.length_memset _ _).symm)

end Filled

section Displays
variable {sdk : Sdk} {t : Signing} {c : StakedaoParameters} {ui : EthQueryContractUI}

/-- A name is terminated if the contracts that were looked up have no other. -/
theorem name_terminated_of {f : NameField}
    (h : ∀ d ∈ t.destinations, ∀ name, f.entryName d = some name → 0 ∈ name.toList) :
    0 ∈ (t.name f).toList := by
  have hzero : (0 : UInt8) ∈ (Vector.replicate 16 (0 : UInt8)).toList := by decide
  refine run_invariant (Signing.lookName f) (fun name : Ticker => 0 ∈ name.toList) t.destinations
    _ hzero ?_
  intro d hd name hname
  unfold Signing.lookName
  cases hn : f.entryName d with
  | none => exact hname
  | some entry => exact h d hd entry hn

theorem name_terminated (f : NameField) (h : btcPool.address ∉ t.destinations) :
    0 ∈ (t.name f).toList := by
  refine name_terminated_of ?_
  rintro d hd name hname
  have hne : d ≠ btcPool.address := by
    rintro rfl
    exact h hd
  exact entryName_terminated f hne hname

theorem vault_terminated (t : Signing) : 0 ∈ (t.name .vault).toList :=
  name_terminated_of fun _ _ _ hname => vault_names_terminated hname

theorem decimals_le (t : Signing) : t.decimals.toNat ≤ 18 := by
  have hinit : (initialContext t.operation).decimals.toNat ≤ 18 := by
    simp only [initialContext]
    split_ifs <;> decide
  refine run_invariant Signing.lookDecimals (fun k : UInt8 => k.toNat ≤ 18) t.destinations _
    hinit ?_
  intro d _ k hk
  unfold Signing.lookDecimals
  cases hv : strategyAt d with
  | none => exact hk
  | some v =>
    rw [Option.map_some, Option.getD_some, strategies_decimals v (strategyAt_eq_some hv).1]
    decide

theorem screens_contract (s : StakedaoSelector) : ∀ screen ∈ screens s,
    screen.content = .contract → screen.title = "Strategy" := by
  cases s <;> simp [screens, strategyScreens]

/-- The fixed texts have no NUL. -/
theorem screens_text (s : StakedaoSelector) : ∀ screen ∈ screens s, ∀ x,
    screen.content = .text x → cstr (literal x) = literal x := by
  have htexts : ∀ x ∈ ["ALL", "LP", "Claim", "xSDT", "ANGLE", "NFTBoost", "StakeDAO NFTs", "1",
      "Selected"], cstr (literal x) = literal x := by decide +kernel
  have hmem : ∀ screen ∈ screens s, ∀ x, screen.content = .text x →
      x ∈ ["ALL", "LP", "Claim", "xSDT", "ANGLE", "NFTBoost", "StakeDAO NFTs", "1",
        "Selected"] := by
    cases s <;> simp [screens, strategyScreens]
  intro screen hs x hx
  exact htexts x (hmem screen hs x hx)

theorem Represents.selectorIndex (h : Represents sdk c t) :
    c.selectorIndex = t.operation.toIndex := by
  rw [h]
  exact delivered_selectorIndex sdk t.operation t.words

theorem Represents.read (h : Represents sdk c t) (f : NameField) : f.read c = t.name f := by
  rw [h]
  cases f <;> rfl

theorem Represents.decimals (h : Represents sdk c t) : c.decimals = t.decimals := by
  rw [h]
  rfl

theorem Represents.amount (h : Represents sdk c t) (hs : ShowsAmount t.operation) :
    c.amount = t.amount := by
  rw [h, Signing.amount, ← lastHit_amount t.words hs]
  exact delivered_amount sdk t.operation t.words

theorem Represents.identifier (h : Represents sdk c t) (hs : ShowsPid t.operation) :
    c.pid = t.identifier := by
  rw [h, Signing.identifier, ← lastHit_pid t.words hs]
  exact delivered_pid sdk t.operation t.words

/-- The app is given the title and the text, or the call throws. -/
def Displays (ui : EthQueryContractUI) (title : String) (text : Option (List UInt8))
    (o : Outcome EthQueryContractUI) : Prop :=
  match text with
  | some text => ∃ m, o = .returned m ∧ Filled ui title text m
  | none => o = .thrown (setTitle title (cleared ui))

theorem displays_amountToMsg (ui : EthQueryContractUI) (hsdk : sdk.Lawful) (title : String)
    (amount : List UInt8) (decimals : UInt8) {ticker : List UInt8}
    (hroom : LeavesRoom ticker (UInt8.ofNat ui.msg.length).toNat) :
    Displays ui title
      ((sdk.amountToString amount decimals ticker (UInt8.ofNat ui.msg.length)).map cstr)
      (amountToMsg sdk (setTitle title (cleared ui)) amount decimals ticker) := by
  cases h : sdk.amountToString amount decimals ticker (UInt8.ofNat ui.msg.length) with
  | none => exact thrown_amountToMsg title h
  | some text => exact filled_amountToMsg hsdk title hroom h

theorem displays_setTickerAmount (hsdk : sdk.Lawful) (hm : MsgBuffer ui)
    (hc : c.decimals.toNat ≤ 18) (ticker : Ticker)
    (hfits : AmountFits (amountText c) ticker ui.msg.length) :
    Displays ui "Amount" (some (withTicker (amountText c) ticker))
      (setTickerAmount sdk (cleared ui) c ticker) := by
  have htext : sdk.amountToString c.amount.toList c.decimals [] 100 = some (amountText c) :=
    amountToString_tmpBuffer hsdk c.amount hc
  obtain ⟨m, hset, hresult, htitle, -, hstray, hshown⟩ := cstr_setTickerAmount hsdk ticker htext hm
  have hwhole := (amountFits_iff ticker ui.msg.length hm.pos).mp hfits
  refine ⟨m, hset, hresult, ?_, ?_, ?_, ?_⟩
  · rw [htitle]
    exact Buffer.cstr_strlcpy ui.title (literal "Amount")
  · rw [hshown, hwhole.2]
  · rw [htitle]
    exact Buffer.stray_strlcpy _ _
  · rw [hstray, hm.stray]
    exact decide_eq_false hwhole.1

/-- Every screen of the operation shows what is known about the transaction. -/
theorem displays_screen (hsdk : sdk.Lawful) (hm : MsgBuffer ui) (hc : Represents sdk c t)
    (haddress : c.address = ui.txContent.destination) {screen : Screen}
    (hscreen : (screens t.operation)[ui.screenIndex.toNat]? = some screen)
    (hfits : screen.content.Fits sdk t ui.txContent ui.msg.length) :
    Displays ui screen.title (screen.content.shown sdk t ui.txContent ui.msg.length)
      (showScreen sdk (cleared ui) c) := by
  have hmem := List.mem_of_getElem? hscreen
  rw [showScreen_eq_render sdk (cleared ui) hc.selectorIndex hscreen]
  obtain ⟨title, content⟩ := screen
  cases content with
  | text s =>
    have hs : cstr (literal s) = literal s := screens_text t.operation _ hmem s rfl
    have hfilled := filled_setTexts ui title (literal s)
    rw [hs] at hfilled
    exact ⟨_, rfl, hfilled⟩
  | name f =>
    have hread : cstr (f.readFrom c) = cstr (t.name f).toList := by
      have hends : 0 ∈ (f.read c).toList := by
        rw [hc.read f]
        exact hfits
      rw [cstr_readFrom f hends, hc.read f]
    have hfilled := filled_setTexts ui title (f.readFrom c)
    rw [hread] at hfilled
    exact ⟨_, rfl, hfilled⟩
  | amountIn f =>
    obtain ⟨htitle, hs⟩ := (screens_amount t.operation _ hmem).1 f rfl
    obtain rfl : title = "Amount" := htitle
    have htext : amountText c = decimalText t.decimals.toNat (beNat t.amount.toList) := by
      rw [amountText, hc.decimals, hc.amount hs]
    have hle : c.decimals.toNat ≤ 18 := by
      rw [hc.decimals]
      exact decimals_le t
    simp only [Content.Fits, ← htext] at hfits
    simp only [Content.shown, Content.render, ← htext, hc.read f]
    exact displays_setTickerAmount hsdk hm hle (t.name f) hfits
  | amount ticker =>
    have hs := (screens_amount t.operation _ hmem).2 ticker rfl
    simp only [Content.shown, Content.render, hc.amount hs]
    exact displays_amountToMsg ui hsdk title _ _ (by rwa [hm.toNat_size])
  | value ticker => exact displays_amountToMsg ui hsdk title _ _ (by rwa [hm.toNat_size])
  | identifier =>
    have hs := screens_identifier t.operation _ hmem rfl
    have hdisplays := displays_amountToMsg ui hsdk title t.identifier.toList 0 (Or.inl rfl)
    simp only [Content.shown, Content.render, hc.identifier hs]
    cases h : sdk.amountToString t.identifier.toList 0 [] (UInt8.ofNat ui.msg.length) with
    | none =>
      rw [h] at hdisplays
      exact hdisplays
    | some text =>
      have hexact := hsdk.exact _ _ _ _ h
      have hnul : cstr text = text := by
        rw [hexact]
        exact cstr_eq_self (decimalText_ne_nul _ _)
      rw [h, Option.map_some, hnul, hexact] at hdisplays
      exact hdisplays
  | contract =>
    obtain rfl : title = "Strategy" := screens_contract t.operation _ hmem rfl
    have hroom : 2 + (sdk.getEthAddressStringFromBinary c.address 0).length ≤ ui.msg.length := by
      rw [haddress]
      exact hfits
    have hfilled := filled_setStrategyUi c hroom
    rw [haddress] at hfilled
    exact ⟨_, rfl, hfilled⟩

end Displays
end StakedaoPlugin
