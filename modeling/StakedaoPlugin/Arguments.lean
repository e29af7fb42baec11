import StakedaoPlugin.Screens

/-! The arguments that screens show: where they stand in the calldata, and which
word their slot holds after a list of words of any length. -/
namespace StakedaoPlugin
open CMemory CursorParser

/-- Screen 2 shows the parsed amount. -/
def ShowsAmount (s : StakedaoSelector) : Prop := tickerField s ≠ none ∨ s = .rewardsClaim

/-- A screen shows the parsed pool or NFT identifier. -/
def ShowsPid (s : StakedaoSelector) : Prop := IsLp s ∨ s = .nftStake

instance (s : StakedaoSelector) : Decidable (IsLp s) := inferInstanceAs (Decidable (_ ∨ _))
instance (s : StakedaoSelector) : Decidable (ShowsAmount s) := inferInstanceAs (Decidable (_ ∨ _))
instance (s : StakedaoSelector) : Decidable (ShowsPid s) := inferInstanceAs (Decidable (_ ∨ _))

/-- A screen with an amount is one of an operation whose amount is stored. -/
theorem screens_amount (s : StakedaoSelector) : ∀ screen ∈ screens s,
    (∀ f, screen.content = .amountIn f → screen.title = "Amount" ∧ ShowsAmount s) ∧
      ∀ ticker, screen.content = .amount ticker → ShowsAmount s := by
  cases s <;> simp [screens, strategyScreens, ShowsAmount, tickerField]

theorem screens_identifier (s : StakedaoSelector) : ∀ screen ∈ screens s,
    screen.content = .identifier → ShowsPid s := by
  cases s <;> simp [screens, strategyScreens, ShowsPid, IsLp]

/-- The screen of the identifier: that of the name for a pool, that of the amount for an NFT. -/
def idScreen (s : StakedaoSelector) : UInt8 := if s = .nftStake then 2 else 0

/-- The position of the amount in the signature of the operation. -/
def amountPosition : StakedaoSelector → Nat
  | .lpDeposit | .lpWithdraw => 1
  | .rewardsClaim => 2
  | _ => 0

theorem positions_lt (s : StakedaoSelector) :
    (ShowsAmount s → amountPosition s < headWords s) ∧ (ShowsPid s → 0 < headWords s) := by
  cases s <;> decide

/-- The last case of the operation's switch copies its word into a slot that a
screen shows, and does so again with every further word. -/
def copiesTrailing : StakedaoSelector → Bool
  | .vaultDeposit | .vaultWithdraw | .optDepositCrvlp | .optWithdrawCrvlp | .premiumWithdraw
  | .sanctuaryEnter | .sanctuaryLeave | .palaceStake | .palaceWithdraw | .lpDeposit
  | .lpWithdraw | .nftStake => true
  | _ => false

/-- Where the argument can be found in a list of words. -/
def wordAt (copies : Bool) (position : Nat) (ws : List Word) : Option Word :=
  if copies then (ws.drop position).getLast? else ws[position]?

section Words
variable {s : StakedaoSelector} (ws : List Word)

/-- The amount that is shown is the word at its position, or the last word from
there on where the last case is the one for the amount. -/
theorem lastHit_amount (hs : ShowsAmount s) :
    lastHit (· == .amount) (stores s) ws = wordAt (copiesTrailing s) (amountPosition s) ws := by
  cases s <;> first
    | exact lastHit_last _ [] _ ws (by decide) rfl
    | exact lastHit_last _ [_] _ ws (by decide) rfl
    | exact lastHit_inner _ [] _ _ _ ws (by decide) rfl (by decide)
    | exact lastHit_inner _ [_, _] _ _ _ ws (by decide) rfl (by decide)
    | exact absurd hs (by decide)

theorem lastHit_pid (hs : ShowsPid s) :
    lastHit Store.isPid (stores s) ws = wordAt (decide (s = .nftStake)) 0 ws := by
  cases s <;> first
    | exact lastHit_last _ [] _ ws (by decide) rfl
    | exact lastHit_inner _ [] _ _ _ ws (by decide) rfl (by decide)
    | exact absurd hs (by decide)

/-- An argument is found exactly when a word was delivered at its position. -/
theorem wordAt_cases (copies : Bool) (position : Nat) :
    (position < ws.length ∧ ∃ w ∈ ws, wordAt copies position ws = some w) ∨
      (¬ position < ws.length ∧ wordAt copies position ws = none) := by
  by_cases hp : position < ws.length
  · have hsome : (wordAt copies position ws).isSome := by
      unfold wordAt
      split <;> simp [hp]
    obtain ⟨w, hw⟩ := Option.isSome_iff_exists.mp hsome
    refine Or.inl ⟨hp, w, ?_, hw⟩
    unfold wordAt at hw
    split at hw
    · exact List.mem_of_mem_drop (List.mem_of_getLast? hw)
    · exact List.mem_of_getElem? hw
  · refine Or.inr ⟨hp, ?_⟩
    unfold wordAt
    split <;> simp [Nat.not_lt.mp hp]

/-- Behind the position, the word is the last one, or not touched by what follows. -/
theorem wordAt_append (copies : Bool) (position : Nat) (xs : List Word)
    (h : position < ws.length) :
    wordAt copies position (ws ++ xs) =
      if copies then xs.getLast?.or ws.getLast? else wordAt copies position ws := by
  unfold wordAt
  split
  · rw [List.getLast?_drop, if_neg (by rw [List.length_append]; omega), List.getLast?_append]
  · exact List.getElem?_append_left h

theorem wordAt_exact (copies : Bool) (position : Nat) (h : ws.length = position + 1) :
    wordAt copies position ws = ws[position]? := by
  unfold wordAt
  split
  · rw [List.getLast?_eq_getElem?, List.getElem?_drop, List.length_drop, h]
    congr 1
    omega
  · rfl

end Words

section Parsed
variable {sdk : Sdk} {init : EthPluginInitContract} {c₀ c : StakedaoParameters} {ws : List Word}

/-- The amount that is shown: its word, or the zero of the cleared context. -/
theorem amount_parsed (h : parsed sdk init c₀ ws = some c)
    (hs : ShowsAmount (chosen init.selector init.txContent.destination)) :
    c.amount = (wordAt (copiesTrailing (chosen init.selector init.txContent.destination))
      (amountPosition (chosen init.selector init.txContent.destination)) ws).getD
        (Vector.replicate 32 0) := by
  rw [slots_parsed sdk h, ← lastHit_amount ws hs]
  exact delivered_amount sdk _ ws

/-- The identifier that is shown: the low half of its word, or zero. -/
theorem pid_parsed (h : parsed sdk init c₀ ws = some c)
    (hs : ShowsPid (chosen init.selector init.txContent.destination)) :
    c.pid = ((wordAt (decide (chosen init.selector init.txContent.destination = .nftStake))
      0 ws).map lowHalf).getD (Vector.replicate 16 0) := by
  rw [slots_parsed sdk h, ← lastHit_pid ws hs]
  exact delivered_pid sdk _ ws

end Parsed

section Abi

def wordOf (n : Nat) : Word := Vector.ofFn fun i => UInt8.ofNat (n / 256 ^ (31 - i.val))

/-- The words are exactly the arguments of the operation: the head words, and
for a claim the length and the elements of its proof, at offset 128. -/
def IsAbiEncoding (s : StakedaoSelector) (ws : List Word) : Prop :=
  if s = .rewardsClaim then
    ∃ (merkleIndex index amount : Word) (merkleProof : List Word),
      ws = [merkleIndex, index, amount, wordOf 128, wordOf merkleProof.length] ++ merkleProof
  else ws.length = headWords s

theorem wordAt_amount_of_abi {s : StakedaoSelector} {ws : List Word} (hs : ShowsAmount s)
    (h : IsAbiEncoding s ws) :
    ∃ w, ws[amountPosition s]? = some w ∧
      wordAt (copiesTrailing s) (amountPosition s) ws = some w := by
  by_cases hr : s = .rewardsClaim
  · subst hr
    obtain ⟨merkleIndex, index, amount, merkleProof, rfl⟩ := (if_pos rfl).mp h
    exact ⟨amount, rfl, rfl⟩
  · have hl : ws.length = headWords s := by simpa [IsAbiEncoding, hr] using h
    have hp : amountPosition s < headWords s ∧
        (copiesTrailing s = true → headWords s = amountPosition s + 1) := by
      cases s <;> first
        | exact ⟨by decide, by decide⟩
        | exact absurd hs (by decide)
    have hlt : amountPosition s < ws.length := by omega
    have hw := List.getElem?_eq_getElem hlt
    refine ⟨_, hw, ?_⟩
    cases hc : copiesTrailing s with
    | true => rw [wordAt_exact ws true _ (by rw [hl, hp.2 hc]), hw]
    | false => exact hw

end Abi
end StakedaoPlugin
