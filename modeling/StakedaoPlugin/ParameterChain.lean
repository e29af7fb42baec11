import StakedaoPlugin.InitContract
import StakedaoPlugin.ProvideParameter

/-! The switches of each operation form one chain that starts where
`handle_init_contract` leaves `next_param`, so every word is accepted, and each
slot holds the last word that was delivered to it. -/
namespace StakedaoPlugin
open CMemory CursorParser

/-- What the operation does with its arguments, in calldata order. -/
def stores (s : StakedaoSelector) : List Store := (paramCases s).map Case.act

/-- The number of head words in the signature of the operation. -/
def headWords : StakedaoSelector → Nat
  | .vaultDepositAll | .premiumGetreward | .premiumExit | .nftUnstake => 0
  | .vaultDeposit | .vaultWithdraw | .optDepositEth | .optDepositCrvlp | .optWithdrawCrvlp
  | .premiumWithdraw | .sanctuaryEnter | .sanctuaryLeave | .palaceStake | .palaceWithdraw
  | .nftStake | .angleGetReward => 1
  | .optWithdrawEth | .optDepositUnderlying | .optWithdrawUnderlying | .premiumStake
  | .lpDeposit | .lpWithdraw => 2
  | .curveAddL2 => 3
  | .curveAddL3 | .rewardsClaim => 4
  | .curveAddL3Under => 5

theorem stores_length (s : StakedaoSelector) : (stores s).length = headWords s := by
  cases s <;> rfl

theorem paramCases_chain (s : StakedaoSelector) : Chain (paramCases s) := by
  have hn : ((paramCases s).map Case.field).Nodup := by cases s <;> decide
  refine ⟨?_, hn⟩
  cases s <;> simp [paramCases, noParamsCases, vaultCases, optMinAmountCases,
    premiumStakeCases, lpCases, rewardsClaimCases, angleRewardCases, nftStakeCases,
    curveAddL2Cases, curveAddL3Cases, curveAddL3UnderCases, paramCase, Linked]

theorem initialContext_head {s : StakedaoSelector} {c : Case UInt8 Store}
    {rest : List (Case UInt8 Store)} (h : paramCases s = c :: rest) :
    (initialContext s).nextParam = c.field := by
  have hh : (paramCases s).head?.map Case.field =
      if headWords s = 0 then none else some (initialContext s).nextParam := by
    cases s <;> rfl
  rw [h] at hh
  by_cases h0 : headWords s = 0
  · simp [h0] at hh
  · simpa [h0] using hh.symm

section Run
variable (sdk : Sdk) (s : StakedaoSelector) (ws : List Word)

/-- The slots after the words of a call. -/
def delivered : StakedaoParameters :=
  deliver (Store.apply sdk) (stores s) ws (initialContext s)

/-- The context is on the operation's own chain, at the case for the next word. -/
structure OnChain (context : StakedaoParameters) : Prop where
  selectorIndex : context.selectorIndex = s.toIndex
  nextParam : ∃ c rest, advance^[ws.length] (paramCases s) = c :: rest ∧
    c :: rest <:+ paramCases s ∧ context.nextParam = c.field
  slots : context = { delivered sdk s ws with nextParam := context.nextParam }

theorem delivered_amount :
    (delivered sdk s ws).amount =
      (lastHit (· == .amount) (stores s) ws).getD (initialContext s).amount := by
  have h := read_deliver (Store.apply sdk) StakedaoParameters.amount id (· == .amount)
    (fun a w c => by cases a <;> simp [Store.apply, copyAmount_word]) (stores s) ws
    (initialContext s)
  simpa [delivered] using h

def Store.isPid (a : Store) : Bool := a == .pid || a == .nftId

theorem delivered_pid :
    (delivered sdk s ws).pid =
      ((lastHit Store.isPid (stores s) ws).map lowHalf).getD (initialContext s).pid :=
  read_deliver (Store.apply sdk) StakedaoParameters.pid lowHalf Store.isPid
    (fun a w c => by cases a <;> simp [Store.apply, Store.isPid, copyPid_word, copyNftId_word])
    (stores s) ws (initialContext s)

/-- The fields that no parameter handler writes. -/
def untouched (c : StakedaoParameters) : Ticker × Ticker × Ticker × UInt8 × Nat :=
  (c.strategy, c.want, c.vault, c.decimals, c.selectorIndex)

theorem delivered_untouched : untouched (delivered sdk s ws) = untouched (initialContext s) := by
  refine view_deliver (Store.apply sdk) untouched ?_ (stores s) ws (initialContext s)
  intro a w c
  cases a <;> simp only [Store.apply, untouched]

theorem delivered_selectorIndex : (delivered sdk s ws).selectorIndex = s.toIndex :=
  congrArg (fun t => t.2.2.2.2) (delivered_untouched sdk s ws)

/-- With arguments to parse, every word is accepted and the cursor stays on the chain. -/
theorem provideParameters_initial (h : headWords s ≠ 0) :
    ∃ context, provideParameters sdk (initialContext s) ws = some context ∧
      OnChain sdk s ws context := by
  cases hc : paramCases s with
  | nil =>
    have hl := stores_length s
    simp only [stores, hc, List.map_nil, List.length_nil] at hl
    exact absurd hl.symm h
  | cons c rest =>
    have hall : c :: rest <:+ paramCases s := by rw [hc]
    obtain ⟨d, rest', hadv, hsuf, hrun⟩ := run_chain (paramCases_chain s) (Store.apply sdk) ws
      hall (initialContext s)
    refine ⟨{ delivered sdk s ws with nextParam := d.field }, ?_, ?_⟩
    · rw [provideParameters_eq_run sdk s _ ws rfl, initialContext_head hc, hrun, ← hc]
      rfl
    · exact ⟨delivered_selectorIndex sdk s ws, ⟨d, rest', by rw [hc, hadv], hsuf, rfl⟩, rfl⟩

/-- Without arguments each word is refused and changes nothing. -/
theorem handleProvideParameter_noParams (context : StakedaoParameters)
    (msg : EthPluginProvideParameter) (h : headWords s = 0)
    (hc : context.selectorIndex = s.toIndex) :
    handleProvideParameter sdk msg context = ({ msg with result := .error }, context) := by
  have hn : paramCases s = [] := by
    have hl := stores_length s
    rw [h, stores, List.length_map] at hl
    exact List.eq_nil_of_length_eq_zero hl
  rw [handleProvideParameter_eq sdk s context msg hc, hn]
  rfl

theorem provideParameters_noParams (h : headWords s = 0) :
    provideParameters sdk (initialContext s) ws =
      if ws = [] then some (initialContext s) else none := by
  cases ws with
  | nil => rfl
  | cons w ws =>
    rw [provideParameters, handleProvideParameter_noParams sdk s _ _ h rfl]
    simp

/-- Accepted words leave the slots of `delivered`, whatever the operation. -/
theorem eq_delivered_of_provideParameters {context : StakedaoParameters}
    (h : provideParameters sdk (initialContext s) ws = some context) :
    context = { delivered sdk s ws with nextParam := context.nextParam } := by
  by_cases h0 : headWords s = 0
  · rw [provideParameters_noParams sdk s ws h0] at h
    split at h
    · next hw =>
      have hi : initialContext s = context := by simpa using h
      rw [← hi, hw]
      rfl
    · simp at h
  · obtain ⟨c, hc, hon⟩ := provideParameters_initial sdk s ws h0
    rw [h, Option.some.injEq] at hc
    rw [hc]
    exact hon.slots

end Run
end StakedaoPlugin
