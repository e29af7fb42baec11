import StakedaoPlugin.Replies

/-! The buffers of a query: which screens write past the end of the message
buffer, after any calls whatsoever. -/
namespace StakedaoPlugin
open CMemory DecimalText History Simulation

/-- What the app writes of an amount whose ticker fills the buffer to its end. -/
def uncheckedAmount (sdk : Sdk) (amount : List UInt8) (decimals : UInt8) (ticker : List UInt8)
    (size : Nat) : Nat :=
  if LeavesRoom ticker size then 0
  else extent (sdk.amountToString amount decimals ticker (UInt8.ofNat size))

/-- The bytes that a screen writes without keeping to the size of the buffer. -/
def Content.unchecked (sdk : Sdk) (t : Signing) (tx : TxContent) (size : Nat) : Content → Nat
  | .amountIn _ => (decimalText t.decimals.toNat (beNat t.amount.toList)).length + 17
  | .contract => 2 + (sdk.getEthAddressStringFromBinary tx.destination 0).length
  | .amount ticker => uncheckedAmount sdk t.amount.toList 18 (literal ticker) size
  | .value ticker => uncheckedAmount sdk tx.value.bytes 18 (literal ticker) size
  | .text _ | .name _ | .identifier => 0

/-- The texts that end within the buffer, however long they are: not the contract,
and an amount with a ticker of its own where that leaves room. -/
def Content.Ends (size : Nat) : Content → Prop
  | .contract => False
  | .amount ticker | .value ticker => LeavesRoom (literal ticker) size
  | .text _ | .name _ | .amountIn _ | .identifier => True

section Contained
variable {sdk : Sdk} {t : Signing} {c : StakedaoParameters} {ui : EthQueryContractUI}

/-- What a screen with that many unchecked bytes leaves in its two buffers. -/
structure Contained (ui : EthQueryContractUI) (unchecked : Nat) (m : EthQueryContractUI) :
    Prop where
  title : m.title.stray = ui.title.stray
  msg : m.msg.stray = decide (ui.msg.length < unchecked)
  length : m.msg.length = ui.msg.length

/-- A text that is shorter than its buffer ends in it. -/
theorem mem_zero_of_cstr {b : Buffer} (h : (cstr b.bytes).length < b.length) : 0 ∈ b.bytes := by
  by_contra h0
  rw [(cstr_eq_self_iff b.bytes).mpr h0] at h
  exact Nat.lt_irrefl _ h

theorem contained_setTexts (hm : MsgBuffer ui) (title : String) (text : List UInt8) :
    Contained ui 0 (setTexts title text (cleared ui)) ∧
      0 ∈ (setTexts title text (cleared ui)).msg.bytes := by
  have hlen : (setTexts title text (cleared ui)).msg.length = ui.msg.length :=
    (Buffer.length_strlcpy _ _).trans (Buffer.length_memset _ _)
  refine ⟨⟨Buffer.stray_strlcpy _ _, ?_, hlen⟩, mem_zero_of_cstr ?_⟩
  · exact (Buffer.stray_strlcpy _ _).trans hm.stray
  · rw [hlen, (filled_setTexts ui title text).text, List.length_take]
    have hpos := hm.pos
    omega

/-- All that the app writes of an amount goes to the message. -/
theorem contained_extent (sdk : Sdk) (hm : MsgBuffer ui) (title : String) (amount : List UInt8)
    (decimals : UInt8) (ticker : List UInt8) :
    Contained ui (extent (sdk.amountToString amount decimals ticker (UInt8.ofNat ui.msg.length)))
        (amountToMsg sdk (setTitle title (cleared ui)) amount decimals ticker).state ∧
      (extent (sdk.amountToString amount decimals ticker (UInt8.ofNat ui.msg.length)) ≤
          ui.msg.length →
        0 ∈ (amountToMsg sdk (setTitle title (cleared ui)) amount decimals
          ticker).state.msg.bytes) := by
  have hzero : (Buffer.mk (List.replicate ui.msg.length 0) ui.msg.stray).length =
      ui.msg.length := List.length_replicate
  rw [amountToMsg_cleared]
  cases sdk.amountToString amount decimals ticker (UInt8.ofNat ui.msg.length) with
  | none =>
    refine ⟨⟨Buffer.stray_strlcpy _ _, hm.stray, Buffer.length_memset _ _⟩, ?_⟩
    intro _
    exact List.mem_replicate.mpr ⟨Nat.ne_of_gt hm.pos, rfl⟩
  | some text =>
    have hextent : extent (some text) = (text ++ [0]).length := by
      rw [List.length_append, List.length_singleton]
      rfl
    rw [hextent]
    refine ⟨⟨Buffer.stray_strlcpy _ _, ?_, (Buffer.length_write _ _ _).trans hzero⟩, ?_⟩
    · rw [Outcome.state_returned, Buffer.write_stray, hzero, hm.stray, Nat.zero_add]
      simp
    · intro hle
      have hbytes := Buffer.bytes_write_zero ui.msg.length (text ++ [0]) ui.msg.stray hle
      simp [hbytes]

/-- Where the ticker leaves room, the app keeps to the buffer. -/
theorem contained_amountToMsg (hsdk : sdk.Lawful) (hm : MsgBuffer ui) (title : String)
    (amount : List UInt8) (decimals : UInt8) (ticker : List UInt8) :
    Contained ui (uncheckedAmount sdk amount decimals ticker ui.msg.length)
        (amountToMsg sdk (setTitle title (cleared ui)) amount decimals ticker).state ∧
      (LeavesRoom ticker ui.msg.length ∨
          uncheckedAmount sdk amount decimals ticker ui.msg.length < ui.msg.length →
        0 ∈ (amountToMsg sdk (setTitle title (cleared ui)) amount decimals
          ticker).state.msg.bytes) := by
  obtain ⟨hcontained, hends⟩ := contained_extent sdk hm title amount decimals ticker
  unfold uncheckedAmount
  split_ifs with hroom
  · have hle : extent (sdk.amountToString amount decimals ticker (UInt8.ofNat ui.msg.length)) ≤
        ui.msg.length := by
      cases h : sdk.amountToString amount decimals ticker (UInt8.ofNat ui.msg.length) with
      | none => exact Nat.zero_le _
      | some text =>
        have hfits := hsdk.fits amount decimals ticker _ text (by rwa [hm.toNat_size]) h
        rwa [hm.toNat_size] at hfits
    refine ⟨⟨hcontained.title, ?_, hcontained.length⟩, fun _ => hends hle⟩
    rw [hcontained.msg, decide_eq_false (Nat.not_lt.mpr hle),
      decide_eq_false (Nat.not_lt_zero _)]
  · refine ⟨hcontained, ?_⟩
    intro h
    exact hends (Nat.le_of_lt (h.resolve_left hroom))

theorem contained_setTickerAmount (hsdk : sdk.Lawful) (hm : MsgBuffer ui)
    (hc : c.decimals.toNat ≤ 18) (ticker : Ticker) :
    Contained ui ((amountText c).length + 17) (setTickerAmount sdk (cleared ui) c ticker).state ∧
      0 ∈ (setTickerAmount sdk (cleared ui) c ticker).state.msg.bytes := by
  have htext : sdk.amountToString c.amount.toList c.decimals [] 100 = some (amountText c) :=
    amountToString_tmpBuffer hsdk c.amount hc
  obtain ⟨m, hset, -, htitle, hlen, hstray, hshown⟩ := cstr_setTickerAmount hsdk ticker htext hm
  rw [hset, Outcome.state_returned]
  refine ⟨⟨?_, hstray, hlen⟩, mem_zero_of_cstr ?_⟩
  · rw [htitle]
    exact Buffer.stray_strlcpy _ _
  · rw [hlen, hshown, List.length_take]
    have hpos := hm.pos
    omega

theorem contained_setStrategyUi (sdk : Sdk) (hm : MsgBuffer ui) (c : StakedaoParameters) :
    Contained ui (2 + (sdk.getEthAddressStringFromBinary c.address 0).length)
      (setStrategyUi sdk (cleared ui) c) ∧
    (2 + (sdk.getEthAddressStringFromBinary c.address 0).length < ui.msg.length →
      0 ∈ (setStrategyUi sdk (cleared ui) c).msg.bytes) := by
  have hx : (literal "0x").length = 2 := by decide +kernel
  have hcleared : (cleared ui).msg.length = ui.msg.length := Buffer.length_memset _ _
  rw [← hx, ← List.length_append]
  have hmsg := setStrategyUi_msg sdk (cleared ui) c
  have hpos : 0 < (literal "0x" ++ sdk.getEthAddressStringFromBinary c.address 0).length := by
    rw [List.length_append, hx]
    omega
  generalize literal "0x" ++ sdk.getEthAddressStringFromBinary c.address 0 = text at *
  refine ⟨⟨Buffer.stray_strlcpy _ _, ?_, ?_⟩, ?_⟩
  · rw [hmsg, Buffer.write_stray, hcleared, Nat.zero_add]
    simp [cleared, Buffer.memset, hm.stray, hpos]
  · rw [hmsg, Buffer.length_write, hcleared]
  · intro hlt
    have hbytes := Buffer.bytes_write_zero ui.msg.length text ui.msg.stray (Nat.le_of_lt hlt)
    have hz : (0 : UInt8) ∈ List.replicate (ui.msg.length - text.length) 0 :=
      List.mem_replicate.mpr ⟨by omega, rfl⟩
    rw [hmsg]
    exact hbytes ▸ List.mem_append_right text hz

/-- Every screen of an operation stays in the message buffer as far as it keeps to
its size, and ends in it where its text is ended. -/
theorem contained_screen (hsdk : sdk.Lawful) (hm : MsgBuffer ui) (hc : Represents sdk c t)
    (haddress : c.address = ui.txContent.destination) {screen : Screen}
    (hscreen : (screens t.operation)[ui.screenIndex.toNat]? = some screen) :
    Contained ui (screen.content.unchecked sdk t ui.txContent ui.msg.length)
      (showScreen sdk (cleared ui) c).state ∧
    (screen.content.Ends ui.msg.length ∨
        screen.content.unchecked sdk t ui.txContent ui.msg.length < ui.msg.length →
      0 ∈ (showScreen sdk (cleared ui) c).state.msg.bytes) := by
  have hmem := List.mem_of_getElem? hscreen
  rw [showScreen_eq_render sdk (cleared ui) hc.selectorIndex hscreen]
  obtain ⟨title, content⟩ := screen
  cases content with
  | text s => exact (contained_setTexts hm title (literal s)).imp_right fun h _ => h
  | name f => exact (contained_setTexts hm title (f.readFrom c)).imp_right fun h _ => h
  | amountIn f =>
    have hs := ((screens_amount t.operation _ hmem).1 f rfl).2
    have htext : amountText c = decimalText t.decimals.toNat (beNat t.amount.toList) := by
      rw [amountText, hc.decimals, hc.amount hs]
    have hle : c.decimals.toNat ≤ 18 := by
      rw [hc.decimals]
      exact decimals_le t
    obtain rfl : title = "Amount" := ((screens_amount t.operation _ hmem).1 f rfl).1
    simp only [Content.unchecked, Content.render, ← htext]
    exact (contained_setTickerAmount hsdk hm hle _).imp_right fun h _ => h
  | amount ticker =>
    have hs := (screens_amount t.operation _ hmem).2 ticker rfl
    simp only [Content.unchecked, Content.render, hc.amount hs]
    exact contained_amountToMsg hsdk hm title t.amount.toList 18 (literal ticker)
  | value ticker =>
    exact contained_amountToMsg hsdk hm title ui.txContent.value.bytes 18 (literal ticker)
  | identifier =>
    have hnone : uncheckedAmount sdk c.pid.toList 0 [] ui.msg.length = 0 := if_pos (Or.inl rfl)
    obtain ⟨hcontained, hends⟩ := contained_amountToMsg hsdk hm title c.pid.toList 0 []
    rw [hnone] at hcontained
    exact ⟨hcontained, fun _ => hends (Or.inl (Or.inl rfl))⟩
  | contract =>
    obtain ⟨hcontained, hends⟩ := contained_setStrategyUi sdk hm c
    rw [haddress] at hcontained hends
    refine ⟨hcontained, ?_⟩
    intro h
    exact hends (h.resolve_left id)

/-- The answer to a query after some calls. -/
def queried (sdk : Sdk) (calls : List (Option LibCall)) (memory : StakedaoParameters)
    (ui : EthQueryContractUI) : EthQueryContractUI :=
  (handleQueryContractUi sdk ui (run (plugin sdk).next calls memory)).state.1

/-- After any calls, in any order and over any memory, a screen writes past the
message buffer exactly if its amount with 17 bytes more, or the string of the
contract with its prefix, or what the app writes behind a ticker that fills the
buffer, is longer than the buffer. Nothing else leaves its buffer, and all
other texts end in it. -/
theorem buffers_after_calls (hsdk : sdk.Lawful) {calls : List (Option LibCall)}
    (ht : run (Signing.next sdk) calls none = some t) (memory : StakedaoParameters)
    (hm : MsgBuffer ui) {screen : Screen}
    (hscreen : (screens t.operation)[ui.screenIndex.toNat]? = some screen) :
    Contained ui (screen.content.unchecked sdk (t.look ui.txContent.destination) ui.txContent
        ui.msg.length) (queried sdk calls memory ui) ∧
    (screen.content.Ends ui.msg.length ∨
        screen.content.unchecked sdk (t.look ui.txContent.destination) ui.txContent
          ui.msg.length < ui.msg.length →
      0 ∈ (queried sdk calls memory ui).msg.bytes) := by
  have hc := represents_run ht memory
  have hlooked := represents_refresh hc ui.txContent.destination
  have haddress := address_refresh (run (plugin sdk).next calls memory) ui.txContent.destination
  rw [queried, handleQueryContractUi_eq, Outcome.state_map]
  exact contained_screen hsdk hm hlooked haddress hscreen

end Contained

def largestDeposit : List (Option LibCall) :=
  [some (.message (.initContract depositInit)),
    some (.message (.provideParameter ⟨maxUint, .error⟩))]

/-- The largest amount is written past a buffer of 79 bytes, and its screen still ends. -/
theorem buffers_after_largestDeposit :
    (queried referenceSdk largestDeposit .zero
        (uiQuery (callTo passiveStEth.address) 2 79)).msg.stray = true ∧
      0 ∈ (queried referenceSdk largestDeposit .zero
        (uiQuery (callTo passiveStEth.address) 2 79)).msg.bytes := by
  have hinit : Supported referenceSdk depositInit := supported_initCall _ _
  have hknown : run (Signing.next referenceSdk) largestDeposit none =
      some ⟨.vaultDeposit, [maxUint], []⟩ := by
    simp only [largestDeposit, run, List.foldl_cons, List.foldl_nil, Signing.next, if_pos hinit]
    rfl
  have hscreen : (screens .vaultDeposit)[(uiQuery (callTo passiveStEth.address) 2
      79).screenIndex.toNat]? = some ⟨"Amount", .amountIn .want⟩ := rfl
  obtain ⟨hcontained, hends⟩ := buffers_after_calls referenceSdk_lawful hknown .zero
    (msgBuffer_uiQuery (callTo passiveStEth.address) 2 (by omega) (by omega)) hscreen
  refine ⟨?_, hends (Or.inl trivial)⟩
  rw [hcontained.msg, length_uiQuery]
  decide +kernel

def rewardCalls : List (Option LibCall) :=
  some (.message (.initContract (initCall stakedaoRewardsClaimSelector stakedaoNftBoost))) ::
    [wordOf 1, wordOf 2, wordOf 3].map fun w => some (.message (.provideParameter ⟨w, .error⟩))

-- a ticker fills the buffer, and the reward goes past it; with one byte more the app throws
example : (queried referenceSdk rewardCalls .zero (uiQuery anyTx 2 4)).msg.stray = true ∧
    (queried referenceSdk rewardCalls .zero (uiQuery anyTx 2 5)).msg.stray = false := by
  decide +kernel

end StakedaoPlugin
