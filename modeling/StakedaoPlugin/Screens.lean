import StakedaoPlugin.AmountText
import StakedaoPlugin.Dispatch

/-! What each screen of an operation shows: a title, and under it a fixed text, a
name field of the context, an amount, an identifier, or the contract. -/
namespace StakedaoPlugin
open CMemory History

/-- The three name fields of the context. -/
inductive NameField where
  | strategy
  | want
  | vault
deriving DecidableEq

namespace NameField

def read (f : NameField) (c : StakedaoParameters) : Ticker :=
  match f with
  | strategy => c.strategy
  | want => c.want
  | vault => c.vault

def readFrom (f : NameField) (c : StakedaoParameters) : List UInt8 :=
  match f with
  | strategy => c.fromStrategy
  | want => c.fromWant
  | vault => c.fromVault

def ofStrategy (f : NameField) (v : StakedaoStrategy) : Ticker :=
  match f with
  | strategy => v.strategy
  | want => v.want
  | vault => v.vault

/-- A pool has no strategy name. -/
def ofPool (f : NameField) (p : StakedaoCrvPool) : Option Ticker :=
  match f with
  | strategy => none
  | want => some p.want
  | vault => some p.pool

/-- The name that the tables hold for a destination. -/
def entryName (f : NameField) (destination : Address) : Option Ticker :=
  ((poolAt destination).bind f.ofPool).or ((strategyAt destination).map f.ofStrategy)

theorem read_refresh (f : NameField) (c : StakedaoParameters) (destination : Address) :
    f.read (refresh c destination) = (f.entryName destination).getD (f.read c) := by
  rw [refresh_eq]
  cases f <;> cases hp : poolAt destination <;> cases hs : strategyAt destination <;>
    simp [read, entryName, ofPool, ofStrategy, hp, hs]

end NameField

/-- What a screen shows under its title. -/
inductive Content where
  | text (s : String)
  | name (f : NameField)
  | amountIn (f : NameField)
  | amount (ticker : String)
  | value (ticker : String)
  | identifier
  | contract
deriving DecidableEq

structure Screen where
  title : String
  content : Content
deriving DecidableEq

/-- The screens of an operation on a strategy. -/
def strategyScreens (want amount : Content) : List Screen :=
  [⟨"Strategy", .name .strategy⟩, ⟨"Want", want⟩, ⟨"Amount", amount⟩, ⟨"Strategy", .contract⟩]

/-- The screens of each operation, one after the other. -/
def screens : StakedaoSelector → List Screen
  | .vaultDeposit | .sanctuaryEnter | .optDepositUnderlying | .optDepositCrvlp | .palaceStake
  | .palaceWithdraw | .premiumStake | .premiumWithdraw =>
    strategyScreens (.name .want) (.amountIn .want)
  | .vaultWithdraw | .optWithdrawEth | .optWithdrawUnderlying | .optWithdrawCrvlp
  | .sanctuaryLeave =>
    strategyScreens (.name .vault) (.amountIn .vault)
  | .vaultDepositAll | .premiumGetreward | .premiumExit =>
    strategyScreens (.name .want) (.text "ALL")
  | .optDepositEth => strategyScreens (.name .want) (.value "ETH")
  | .lpDeposit | .lpWithdraw =>
    [⟨"LP Farming PID", .identifier⟩, ⟨"Want", .text "LP"⟩, ⟨"Amount", .amountIn .want⟩,
      ⟨"Strategy", .contract⟩]
  | .rewardsClaim =>
    [⟨"Rewards", .text "Claim"⟩, ⟨"Receive", .text "xSDT"⟩, ⟨"Amount", .amount "xSDT"⟩,
      ⟨"Strategy", .contract⟩]
  | .angleGetReward =>
    [⟨"Rewards", .text "Claim"⟩, ⟨"Receive", .text "ANGLE"⟩, ⟨"Amount", .text "ALL"⟩,
      ⟨"Strategy", .contract⟩]
  | .nftStake =>
    [⟨"Strategy", .text "NFTBoost"⟩, ⟨"Want", .text "StakeDAO NFTs"⟩, ⟨"Id", .identifier⟩,
      ⟨"Strategy", .contract⟩]
  | .nftUnstake =>
    [⟨"Strategy", .text "NFTBoost"⟩, ⟨"Want", .text "StakeDAO NFTs"⟩, ⟨"Amount", .text "1"⟩,
      ⟨"Strategy", .contract⟩]
  | .curveAddL2 | .curveAddL3 | .curveAddL3Under =>
    [⟨"Pool", .name .vault⟩, ⟨"Want", .name .want⟩, ⟨"Amount", .text "Selected"⟩,
      ⟨"Strategy", .contract⟩]

/-- The name field that a screen shows, if it shows one. -/
def nameOnScreen (s : StakedaoSelector) (screenIndex : Nat) : Option NameField :=
  match (screens s)[screenIndex]? with
  | some ⟨_, .name f⟩ => some f
  | _ => none

/-- The field that screen 2 appends to the amount, where `set_amount` or
`set_sd_amount` shows one. -/
def tickerField (s : StakedaoSelector) : Option NameField :=
  match (screens s)[(2 : Nat)]? with
  | some ⟨_, .amountIn f⟩ => some f
  | _ => none

def IsLp (s : StakedaoSelector) : Prop := s = .lpDeposit ∨ s = .lpWithdraw

theorem screens_length (s : StakedaoSelector) : (screens s).length = 4 := by
  cases s <;> rfl

theorem nameOnScreen_eq_some {s : StakedaoSelector} {i : Nat} {f : NameField}
    (h : nameOnScreen s i = some f) : ∃ title, (screens s)[i]? = some ⟨title, .name f⟩ := by
  unfold nameOnScreen at h
  split at h
  · next title g hscreen =>
    obtain rfl : g = f := Option.some.inj h
    exact ⟨title, hscreen⟩
  · cases h

theorem tickerField_eq_some {s : StakedaoSelector} {f : NameField} (h : tickerField s = some f) :
    ∃ title, (screens s)[2]? = some ⟨title, .amountIn f⟩ := by
  unfold tickerField at h
  split at h
  · next title g hscreen =>
    obtain rfl : g = f := Option.some.inj h
    exact ⟨title, hscreen⟩
  · cases h

section Render
variable (sdk : Sdk) (title : String) (msg : EthQueryContractUI) (context : StakedaoParameters)

/-- How the plugin fills a screen. -/
def Content.render : Content → Outcome EthQueryContractUI
  | .text s => .returned (setTexts title (literal s) msg)
  | .name f => .returned (setTexts title (f.readFrom context) msg)
  | .amountIn f => setTickerAmount sdk msg context (f.read context)
  | .amount ticker =>
    amountToMsg sdk (setTitle title msg) context.amount.toList 18 (literal ticker)
  | .value ticker =>
    amountToMsg sdk (setTitle title msg) msg.txContent.value.bytes 18 (literal ticker)
  | .identifier => amountToMsg sdk (setTitle title msg) context.pid.toList 0 []
  | .contract => .returned (setStrategyUi sdk msg context)

variable {s : StakedaoSelector} {context}

/-- Each branch of the three inner switches fills the screen that is meant. -/
theorem showScreen_eq_render (hs : context.selectorIndex = s.toIndex) {screen : Screen}
    (h : (screens s)[msg.screenIndex.toNat]? = some screen) :
    showScreen sdk msg context = screen.content.render sdk screen.title msg context := by
  rcases hi : msg.screenIndex.toNat with _ | _ | _ | _ | n <;> rw [hi] at h
  · simp only [showScreen, hi, showName, hs, StakedaoSelector.ofIndex?_toIndex]
    cases s <;> (obtain rfl := Option.some.inj h) <;> rfl
  · simp only [showScreen, hi, showWant, hs, StakedaoSelector.ofIndex?_toIndex]
    cases s <;> (obtain rfl := Option.some.inj h) <;> rfl
  · simp only [showScreen, hi, showAmount, hs, StakedaoSelector.ofIndex?_toIndex]
    cases s <;> (obtain rfl := Option.some.inj h) <;> rfl
  · simp only [showScreen, hi]
    cases s <;> (obtain rfl := Option.some.inj h) <;> rfl
  · cases s <;> cases h

/-- Behind the fourth screen there is none. -/
theorem showScreen_beyond (hi : 4 ≤ msg.screenIndex.toNat) :
    showScreen sdk msg context = .returned { msg with result := .error } := by
  obtain ⟨n, hn⟩ := Nat.exists_eq_add_of_le' hi
  rw [showScreen, hn]
  rfl

theorem showScreen_name (hs : context.selectorIndex = s.toIndex) {f : NameField}
    (hf : nameOnScreen s msg.screenIndex.toNat = some f) :
    ∃ title, showScreen sdk msg context = .returned (setTexts title (f.readFrom context) msg) := by
  obtain ⟨title, hscreen⟩ := nameOnScreen_eq_some hf
  exact ⟨title, showScreen_eq_render sdk msg hs hscreen⟩

theorem showScreen_ticker (hs : context.selectorIndex = s.toIndex) {f : NameField}
    (hf : tickerField s = some f) (hi : msg.screenIndex.toNat = 2) :
    showScreen sdk msg context = setTickerAmount sdk msg context (f.read context) := by
  obtain ⟨title, hscreen⟩ := tickerField_eq_some hf
  rw [← hi] at hscreen
  exact showScreen_eq_render sdk msg hs hscreen

end Render

section Congruence
variable (sdk : Sdk) (msg : EthQueryContractUI) {c d : StakedaoParameters}

/-- What a screen reads of the context is the same in both. -/
def Content.SameIn (c d : StakedaoParameters) : Content → Prop
  | .text _ | .value _ => True
  | .name f => cstr (f.readFrom c) = cstr (f.readFrom d)
  | .amountIn f => c.amount = d.amount ∧ c.decimals = d.decimals ∧ f.read c = f.read d
  | .amount _ => c.amount = d.amount
  | .identifier => c.pid = d.pid
  | .contract => c.address = d.address

theorem Content.render_congr (title : String) {content : Content} (h : content.SameIn c d) :
    content.render sdk title msg c = content.render sdk title msg d := by
  cases content with
  | text s => rfl
  | name f =>
    have hname : cstr (f.readFrom c) = cstr (f.readFrom d) := h
    simp only [Content.render, setTexts, Buffer.strlcpy_congr _ hname]
  | amountIn f =>
    obtain ⟨hamount, hdecimals, hname⟩ := h
    simp only [Content.render, setTickerAmount, hamount, hdecimals, hname]
  | amount ticker =>
    have hamount : c.amount = d.amount := h
    simp only [Content.render, hamount]
  | value ticker => rfl
  | identifier =>
    have hpid : c.pid = d.pid := h
    simp only [Content.render, hpid]
  | contract =>
    have haddress : c.address = d.address := h
    simp only [Content.render, setStrategyUi, haddress]

/-- Operations with the same screens fill them alike from contexts in which all
that these read is the same. -/
theorem showScreen_congr {s s' : StakedaoSelector} (hc : c.selectorIndex = s.toIndex)
    (hd : d.selectorIndex = s'.toIndex) (hscreens : screens s = screens s')
    (h : ∀ screen ∈ screens s, screen.content.SameIn c d) :
    showScreen sdk msg c = showScreen sdk msg d := by
  cases hscreen : (screens s)[msg.screenIndex.toNat]? with
  | none =>
    have hbeyond : 4 ≤ msg.screenIndex.toNat := by
      rwa [List.getElem?_eq_none_iff, screens_length] at hscreen
    rw [showScreen_beyond sdk msg hbeyond, showScreen_beyond sdk msg hbeyond]
  | some screen =>
    have hscreen' : (screens s')[msg.screenIndex.toNat]? = some screen := by rwa [← hscreens]
    rw [showScreen_eq_render sdk msg hc hscreen, showScreen_eq_render sdk msg hd hscreen']
    exact Content.render_congr sdk msg screen.title (h screen (List.mem_of_getElem? hscreen))

/-- What is read from a name field goes no further than the last one. -/
theorem cstr_readFrom_congr (hnames : ∀ f : NameField, f.read c = f.read d)
    (hvault : 0 ∈ c.vault.toList) (f : NameField) :
    cstr (f.readFrom c) = cstr (f.readFrom d) := by
  have hfrom : cstr c.fromVault = cstr d.fromVault := by
    have hsame : c.vault = d.vault := hnames .vault
    simp only [StakedaoParameters.fromVault, List.append_assoc]
    rw [← hsame, cstr_append_of_mem _ hvault, cstr_append_of_mem _ hvault]
  have hwant : cstr c.fromWant = cstr d.fromWant := by
    have hsame : c.want = d.want := hnames .want
    simp only [StakedaoParameters.fromWant, hsame]
    exact cstr_append_congr _ hfrom
  cases f with
  | strategy =>
    have hsame : c.strategy = d.strategy := hnames .strategy
    simp only [NameField.readFrom, StakedaoParameters.fromStrategy, hsame]
    exact cstr_append_congr _ hwant
  | want => exact hwant
  | vault => exact hfrom

end Congruence

end StakedaoPlugin
