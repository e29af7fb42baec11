import StakedaoPlugin.QueryContractUi

/-! What `copy_amount_with_ticker` leaves in the message buffer, and when it
stays inside of it and shows the whole amount. -/
namespace StakedaoPlugin
open CMemory DecimalText

/-- The decimal text of the stored amount at the stored number of decimals. -/
def amountText (context : StakedaoParameters) : List UInt8 :=
  decimalText context.decimals.toNat (beNat context.amount.toList)

/-- An amount, one space and a ticker up to its first NUL. -/
def withTicker (text : List UInt8) (ticker : Ticker) : List UInt8 :=
  text ++ [32] ++ cstr ticker.toList

section Copy
variable {sdk : Sdk} {amount : List UInt8} {decimals : UInt8} {text : List UInt8}

/-- `amountToString` into `tmp_buffer`, which the plugin then measures with `strnlen`. -/
theorem tmpBuffer_text (hsdk : sdk.Lawful)
    (h : sdk.amountToString amount decimals [] 100 = some text) :
    (∀ b ∈ text, b ≠ 0) ∧ text.length < 100 := by
  refine ⟨?_, hsdk.fits _ _ _ _ _ (Or.inl rfl) h⟩
  rw [hsdk.exact _ _ _ _ h]
  exact decimalText_ne_nul _ _

/-- `tmp_buffer` has room for every amount. -/
theorem amountToString_tmpBuffer (hsdk : sdk.Lawful) (amount : Word) (hd : decimals.toNat ≤ 18) :
    sdk.amountToString amount.toList decimals [] 100 =
      some (decimalText decimals.toNat (beNat amount.toList)) := by
  have hsome := hsdk.room amount.toList decimals 100 (by simp) hd (by decide)
  obtain ⟨text, htext⟩ := Option.isSome_iff_exists.mp hsome
  rw [htext, hsdk.exact _ _ _ _ htext]

/-- The three copies are one write of amount, space and all bytes of the ticker field. -/
theorem copyAmountWithTicker_eq (hsdk : sdk.Lawful)
    (h : sdk.amountToString amount decimals [] 100 = some text)
    (ticker : List UInt8) (out : Buffer) (size : UInt8) :
    copyAmountWithTicker sdk amount decimals ticker out size =
      .returned ((out.write 0 (text ++ [32] ++ ticker)).poke ((size.toNat : Int) - 1) 0) := by
  obtain ⟨hnul, hlt⟩ := tmpBuffer_text hsdk h
  have hlen : (cstr (Buffer.write ⟨List.replicate 100 0, false⟩ 0
      (text ++ [0])).bytes).length % 256 = text.length := by
    rw [Buffer.cstr_write_terminated 100 text false hlt, cstr_eq_self hnul]
    omega
  have htake : (Buffer.write ⟨List.replicate 100 0, false⟩ 0 (text ++ [0])).bytes.take text.length =
      text := by
    rw [Buffer.bytes_write_zero _ _ _ (by simpa using hlt), List.append_assoc, List.take_left']
    rfl
  have hw : ((out.write 0 text).write text.length [32]).write (text.length + 1) ticker =
      out.write 0 (text ++ [32] ++ ticker) := by
    have h1 := Buffer.write_write out 0 text [32]
    have h2 := Buffer.write_write out 0 (text ++ [32]) ticker
    simp only [Nat.zero_add, List.length_append, List.length_singleton] at h1 h2
    rw [h1, h2]
  simp only [copyAmountWithTicker, h, hlen, htake, hw]

end Copy

section Safe

/-- Nothing is written outside of the message buffer, and the message is the
whole text unless the call reports failure. -/
def AmountSafe (o : Outcome EthQueryContractUI) (text : List UInt8) (ticker : Ticker) : Prop :=
  o.state.msg.stray = false ∧
    match o with
    | .thrown _ => True
    | .returned m => cstr m.msg.bytes = withTicker text ticker

/-- Room for the amount, the space and the ticker field; a field without NUL
needs one byte more. -/
def AmountFits (text : List UInt8) (ticker : Ticker) (size : Nat) : Prop :=
  text.length + 17 ≤ size ∧ (text.length + 17 = size → 0 ∈ ticker.toList)

theorem amountFits_of_wide {text : List UInt8} (ticker : Ticker) {size : Nat}
    (ht : text.length < 100) (hs : 117 ≤ size) : AmountFits text ticker size := by
  refine ⟨by omega, ?_⟩
  intro he
  omega

/-- The buffer and the length as `handle_query_contract_ui` passes them on. -/
structure MsgBuffer (msg : EthQueryContractUI) : Prop where
  pos : 1 ≤ msg.msg.length
  le : msg.msg.length ≤ 255
  stray : msg.msg.stray = false

/-- The byte that the length is passed as is the length. -/
theorem MsgBuffer.toNat_size {msg : EthQueryContractUI} (h : MsgBuffer msg) :
    (UInt8.ofNat msg.msg.length).toNat = msg.msg.length := by
  have hle := h.le
  rw [UInt8.toNat_ofNat', Nat.mod_eq_of_lt (by omega)]

theorem msgBuffer_uiQuery (tx : TxContent) (screenIndex : UInt8) {n : Nat} (h1 : 1 ≤ n)
    (h2 : n ≤ 255) : MsgBuffer (uiQuery tx screenIndex n) :=
  ⟨(length_uiQuery tx screenIndex n).symm ▸ h1, (length_uiQuery tx screenIndex n).symm ▸ h2, rfl⟩

variable {sdk : Sdk} {msg : EthQueryContractUI} {context : StakedaoParameters} {text : List UInt8}

theorem setTickerAmount_cleared (hsdk : sdk.Lawful) (ticker : Ticker)
    (h : sdk.amountToString context.amount.toList context.decimals [] 100 = some text)
    (hlen : msg.msg.length ≤ 255) :
    setTickerAmount sdk (cleared msg) context ticker =
      .returned { setTitle "Amount" (cleared msg) with
        msg := ((Buffer.mk (List.replicate msg.msg.length 0) msg.msg.stray).write 0
          (text ++ [32] ++ ticker.toList)).poke ((msg.msg.length : Int) - 1) 0 } := by
  have hsize : (UInt8.ofNat (setTitle "Amount" (cleared msg)).msg.length).toNat =
      msg.msg.length := by
    simp only [setTitle, cleared, Buffer.length_memset, UInt8.toNat_ofNat']
    omega
  simp only [setTickerAmount, copyAmountWithTicker_eq hsdk h, hsize]
  rfl

theorem setTickerAmount_thrown (ticker : Ticker)
    (h : sdk.amountToString context.amount.toList context.decimals [] 100 = none) :
    setTickerAmount sdk (cleared msg) context ticker =
      .thrown (setTitle "Amount" (cleared msg)) := by
  simp only [setTickerAmount, copyAmountWithTicker, h]
  rfl

/-- What the message shows, also when the write ran over: the text cut to its length. -/
theorem cstr_setTickerAmount (hsdk : sdk.Lawful) (ticker : Ticker)
    (h : sdk.amountToString context.amount.toList context.decimals [] 100 = some text)
    (hm : MsgBuffer msg) :
    ∃ m, setTickerAmount sdk (cleared msg) context ticker = .returned m ∧
      m.result = .ok ∧ m.title = (setTitle "Amount" (cleared msg)).title ∧
      m.msg.length = msg.msg.length ∧
      m.msg.stray = decide (msg.msg.length < text.length + 17) ∧
      cstr m.msg.bytes = (withTicker text ticker).take (msg.msg.length - 1) := by
  have hnul := (tmpBuffer_text hsdk h).1
  have hsp : ∀ b ∈ text ++ [32], b ≠ 0 := by
    intro b hb
    cases List.mem_append.mp hb with
    | inl ht => exact hnul b ht
    | inr hs =>
      rw [List.mem_singleton.mp hs]
      decide
  refine ⟨_, setTickerAmount_cleared hsdk ticker h hm.le, rfl, rfl, ?_, ?_, ?_⟩
  · rw [Buffer.length_poke, Buffer.length_write]
    exact List.length_replicate
  · rw [Buffer.stray_write_poke _ _ _ hm.pos, hm.stray]
    simp
  · rw [Buffer.cstr_write_poke _ _ _ hm.pos, cstr_append _ hsp, withTicker]

theorem amountToMsg_cleared (title : String) (amount : List UInt8) (decimals : UInt8)
    (ticker : List UInt8) :
    amountToMsg sdk (setTitle title (cleared msg)) amount decimals ticker =
      match sdk.amountToString amount decimals ticker (UInt8.ofNat msg.msg.length) with
      | some text => .returned { setTitle title (cleared msg) with
          msg := (Buffer.mk (List.replicate msg.msg.length 0) msg.msg.stray).write 0 (text ++ [0]) }
      | none => .thrown (setTitle title (cleared msg)) := by
  have hlen : (setTitle title (cleared msg)).msg.length = msg.msg.length :=
    Buffer.length_memset _ _
  rw [amountToMsg, hlen]
  rfl

/-- The screens that let `amountToString` write to the message show its text. -/
theorem cstr_amountToMsg (hsdk : sdk.Lawful) (title : String) {amount : List UInt8}
    {decimals : UInt8} {ticker : List UInt8}
    (hroom : LeavesRoom ticker (UInt8.ofNat msg.msg.length).toNat)
    (h : sdk.amountToString amount decimals ticker (UInt8.ofNat msg.msg.length) = some text) :
    ∃ m, amountToMsg sdk (setTitle title (cleared msg)) amount decimals ticker = .returned m ∧
      m.result = .ok ∧ m.title = (setTitle title (cleared msg)).title ∧
      m.msg.length = msg.msg.length ∧ m.msg.stray = msg.msg.stray ∧
      cstr m.msg.bytes = cstr text := by
  have hfits : text.length < msg.msg.length := by
    have hlt := hsdk.fits _ _ _ _ _ hroom h
    rw [UInt8.toNat_ofNat'] at hlt
    omega
  have hzero : (Buffer.mk (List.replicate msg.msg.length 0) msg.msg.stray).length =
      msg.msg.length := List.length_replicate
  rw [amountToMsg_cleared, h]
  refine ⟨_, rfl, rfl, rfl, (Buffer.length_write _ _ _).trans hzero, ?_,
    Buffer.cstr_write_terminated msg.msg.length text _ hfits⟩
  refine Buffer.stray_write _ 0 _ ?_
  rw [hzero, List.length_append, List.length_singleton]
  omega

theorem withTicker_length (ticker : Ticker) :
    (withTicker text ticker).length = text.length + 1 + (cstr ticker.toList).length := by
  simp only [withTicker, List.length_append, List.length_singleton]

theorem cstr_ticker_length_le (ticker : Ticker) : (cstr ticker.toList).length ≤ 16 := by
  have h : (cstr ticker.toList).length ≤ ticker.toList.length := (List.takeWhile_prefix _).length_le
  simpa using h

theorem cstr_ticker_length_eq_iff (ticker : Ticker) :
    (cstr ticker.toList).length = 16 ↔ 0 ∉ ticker.toList := by
  have hl : ticker.toList.length = 16 := by simp
  rw [← cstr_eq_self_iff]
  constructor
  · intro h
    exact (List.takeWhile_prefix _).eq_of_length (by rw [hl]; exact h)
  · intro h
    rw [h, hl]

/-- The cut text is the whole text exactly when it leaves room for the terminator. -/
theorem take_withTicker_iff (ticker : Ticker) (size : Nat) (h : 1 ≤ size) :
    (withTicker text ticker).take (size - 1) = withTicker text ticker ↔
      text.length + 1 + (cstr ticker.toList).length < size := by
  rw [List.take_eq_self_iff, withTicker_length]
  omega

theorem amountFits_iff (ticker : Ticker) (size : Nat) (h : 1 ≤ size) :
    AmountFits text ticker size ↔
      ¬ size < text.length + 17 ∧
        (withTicker text ticker).take (size - 1) = withTicker text ticker := by
  have hle := cstr_ticker_length_le ticker
  have hiff := cstr_ticker_length_eq_iff ticker
  rw [take_withTicker_iff ticker size h, AmountFits]
  by_cases h0 : 0 ∈ ticker.toList
  · have hne : (cstr ticker.toList).length ≠ 16 := fun he => hiff.mp he h0
    simp only [h0, implies_true, and_true]
    omega
  · have he := hiff.mpr h0
    simp only [h0, he, imp_false]
    omega

theorem amountSafe_iff (hsdk : sdk.Lawful) (ticker : Ticker) (hm : MsgBuffer msg) :
    AmountSafe (setTickerAmount sdk (cleared msg) context ticker) (amountText context) ticker ↔
      sdk.amountToString context.amount.toList context.decimals [] 100 = none ∨
        AmountFits (amountText context) ticker msg.msg.length := by
  cases h : sdk.amountToString context.amount.toList context.decimals [] 100 with
  | none =>
    rw [setTickerAmount_thrown ticker h]
    simp [AmountSafe, setTitle, cleared, Buffer.memset, hm.stray]
  | some text =>
    have ht : text = amountText context := hsdk.exact _ _ _ _ h
    obtain ⟨m, hset, -, -, -, hstray, hshown⟩ := cstr_setTickerAmount hsdk ticker h hm
    rw [hset, AmountSafe, Outcome.state_returned, hstray, hshown, ← ht,
      amountFits_iff ticker _ hm.pos]
    simp only [decide_eq_false_iff_not, reduceCtorEq, false_or]

/-- Equal messages that show the whole text show the same amount. -/
theorem amount_of_withTicker {k : Nat} {a b : Word} {ticker : Ticker}
    (h : withTicker (decimalText k (beNat a.toList)) ticker =
      withTicker (decimalText k (beNat b.toList)) ticker) : a = b := by
  simp only [withTicker, List.append_assoc] at h
  have ht := List.append_cancel_right h
  exact beNat_toList_inj a b (decimalText_inj _ _ _ ht)

/-- `set_amount` and `set_sd_amount` stay inside their buffer and show the whole
amount exactly when it fits, and where they do no two amounts look the same. -/
theorem setAmount_safe_iff (hsdk : sdk.Lawful) (hm : MsgBuffer msg) :
    (AmountSafe (setAmount sdk (cleared msg) context) (amountText context) context.want ↔
      sdk.amountToString context.amount.toList context.decimals [] 100 = none ∨
        AmountFits (amountText context) context.want msg.msg.length) ∧
    (AmountSafe (setSdAmount sdk (cleared msg) context) (amountText context) context.vault ↔
      sdk.amountToString context.amount.toList context.decimals [] 100 = none ∨
        AmountFits (amountText context) context.vault msg.msg.length) ∧
    ∀ (ticker : Ticker) (c d : StakedaoParameters) (m m' : EthQueryContractUI),
      c.decimals = d.decimals →
      AmountFits (amountText c) ticker msg.msg.length →
      AmountFits (amountText d) ticker msg.msg.length →
      setTickerAmount sdk (cleared msg) c ticker = .returned m →
      setTickerAmount sdk (cleared msg) d ticker = .returned m' →
      cstr m.msg.bytes = cstr m'.msg.bytes → c.amount = d.amount := by
  refine ⟨amountSafe_iff hsdk context.want hm, amountSafe_iff hsdk context.vault hm, ?_⟩
  intro ticker c d m m' hdec hc hd hcm hdm hshown
  have hsc := (amountSafe_iff hsdk ticker hm).mpr (Or.inr hc)
  have hsd := (amountSafe_iff hsdk ticker hm).mpr (Or.inr hd)
  rw [hcm] at hsc
  rw [hdm] at hsd
  have he := hsc.2.symm.trans (hshown.trans hsd.2)
  simp only [amountText, hdec] at he
  exact amount_of_withTicker he

end Safe

def sdtContext (amount : Word) : StakedaoParameters :=
  { StakedaoParameters.zero with
    amount := amount, decimals := 18, want := charArray 16 "SDT", vault := charArray 16 "xSDT" }

def anyTx : TxContent := callTo (Vector.replicate 20 0)

/-- The largest amount and the one below it. -/
def maxUint : Word := Vector.replicate 32 255
def maxUintPred : Word := maxUint.set 31 254

theorem setAmount_safe_hundred :
    AmountSafe (setAmount referenceSdk (cleared (uiQuery anyTx 2 100)) (sdtContext maxUint))
      (amountText (sdtContext maxUint)) (sdtContext maxUint).want :=
  (setAmount_safe_iff referenceSdk_lawful (msgBuffer_uiQuery anyTx 2 (by omega) (by omega))).1.mpr
    (Or.inr (by unfold AmountFits; decide +kernel))

/-- In 79 bytes the largest amount is written past the end of the buffer, and the
text that is left is also that of another amount. -/
theorem setAmount_unsafe_maxUint :
    ¬ AmountSafe (setAmount referenceSdk (cleared (uiQuery anyTx 2 79)) (sdtContext maxUint))
      (amountText (sdtContext maxUint)) (sdtContext maxUint).want ∧
    cstr (setAmount referenceSdk (cleared (uiQuery anyTx 2 79))
        (sdtContext maxUint)).state.msg.bytes =
      cstr (setAmount referenceSdk (cleared (uiQuery anyTx 2 79))
        (sdtContext maxUintPred)).state.msg.bytes := by
  have hstray : (setAmount referenceSdk (cleared (uiQuery anyTx 2 79))
      (sdtContext maxUint)).state.msg.stray = true := by decide +kernel
  refine ⟨?_, by decide +kernel⟩
  intro h
  rw [h.1] at hstray
  exact absurd hstray (by decide)

end StakedaoPlugin
