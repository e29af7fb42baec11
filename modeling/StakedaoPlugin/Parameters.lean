import StakedaoPlugin.Lib.CMemory

/-! The declarations of `stakedao_plugin.h`: the two enumerations, the table
rows and the plugin context shared with the Ethereum app. -/
namespace StakedaoPlugin
open CMemory

abbrev Address := Vector UInt8 20
abbrev Word := Vector UInt8 32
abbrev Selector := Vector UInt8 4
abbrev Ticker := Vector UInt8 16

/-- `PARAMETER_LENGTH`, `ADDRESS_LENGTH` and `MAX_STRATEGY_TICKER_LEN`. -/
def parameterLength : Nat := 32
def addressLength : Nat := 20
def maxStrategyTickerLen : Nat := 16

/-- `stakedaoSelector_t`, in the order of the array `STAKEDAO_SELECTORS`. -/
inductive StakedaoSelector where
  | vaultDeposit
  | vaultWithdraw
  | vaultDepositAll
  | optDepositEth
  | optWithdrawEth
  | optDepositUnderlying
  | optDepositCrvlp
  | optWithdrawUnderlying
  | optWithdrawCrvlp
  | premiumStake
  | premiumWithdraw
  | premiumGetreward
  | premiumExit
  | lpDeposit
  | lpWithdraw
  | sanctuaryEnter
  | sanctuaryLeave
  | palaceStake
  | palaceWithdraw
  | rewardsClaim
  | nftStake
  | nftUnstake
  | angleGetReward
  | curveAddL2
  | curveAddL3
  | curveAddL3Under
deriving DecidableEq

namespace StakedaoSelector

def all : List StakedaoSelector :=
  [vaultDeposit, vaultWithdraw, vaultDepositAll, optDepositEth, optWithdrawEth,
    optDepositUnderlying, optDepositCrvlp, optWithdrawUnderlying, optWithdrawCrvlp,
    premiumStake, premiumWithdraw, premiumGetreward, premiumExit, lpDeposit, lpWithdraw,
    sanctuaryEnter, sanctuaryLeave, palaceStake, palaceWithdraw, rewardsClaim, nftStake,
    nftUnstake, angleGetReward, curveAddL2, curveAddL3, curveAddL3Under]

/-- The value of the enumerator. -/
def toIndex (s : StakedaoSelector) : Nat := s.ctorIdx

/-- The enumerator that a `switch` on the stored integer selects; `none` for its default. -/
def ofIndex? (n : Nat) : Option StakedaoSelector := all[n]?

@[simp] theorem ofIndex?_toIndex (s : StakedaoSelector) : ofIndex? s.toIndex = some s := by
  cases s <;> rfl

theorem toIndex_of_ofIndex? {n : Nat} {s : StakedaoSelector} (h : ofIndex? n = some s) :
    s.toIndex = n := by
  have ht : all.map toIndex = List.range 26 := by rfl
  have hn := congrArg (fun l => l[n]?) ht
  have hs : all[n]? = some s := h
  rw [List.getElem?_map, hs] at hn
  obtain ⟨_, hr⟩ := List.getElem?_eq_some_iff.mp hn.symm
  simpa using hr.symm

theorem toIndex_inj {s t : StakedaoSelector} (h : s.toIndex = t.toIndex) : s = t := by
  have ho := congrArg ofIndex? h
  simpa using ho

end StakedaoSelector

/-- `selectorField`, the values of `next_param`. -/
inductive SelectorField where
  | amount
  | token
  | vault
  | pid
  | minAmount
  | nftId
  | merkleIndex
  | index
  | merkleProof
  | user
  | token1
  | token2
  | token3
  | under
deriving DecidableEq

def SelectorField.toByte (f : SelectorField) : UInt8 := UInt8.ofNat f.ctorIdx

/-- `stakedaoStrategy_t` -/
structure StakedaoStrategy where
  address : Address
  strategy : Ticker
  want : Ticker
  vault : Ticker
  decimals : UInt8

/-- `stakedaoCrvPool_t` -/
structure StakedaoCrvPool where
  address : Address
  pool : Ticker
  want : Ticker

/-- `stakedao_parameters_t`. The enumeration behind `next_param` is kept as its integer. -/
structure StakedaoParameters where
  amount : Word
  minAmount : Word
  address : Address
  strategy : Ticker
  want : Ticker
  vault : Ticker
  pid : Ticker
  decimals : UInt8
  nextParam : UInt8
  selectorIndex : Nat
deriving DecidableEq

namespace StakedaoParameters

/-- The context after `memset(context, 0, sizeof(*context))`. -/
def zero : StakedaoParameters where
  amount := Vector.replicate 32 0
  minAmount := Vector.replicate 32 0
  address := Vector.replicate 20 0
  strategy := Vector.replicate 16 0
  want := Vector.replicate 16 0
  vault := Vector.replicate 16 0
  pid := Vector.replicate 16 0
  decimals := 0
  nextParam := 0
  selectorIndex := 0

/-- What a `char *` to a name field can read: the field and the bytes behind it. -/
def fromVault (c : StakedaoParameters) : List UInt8 :=
  c.vault.toList ++ c.pid.toList ++ [c.decimals, c.nextParam]
def fromWant (c : StakedaoParameters) : List UInt8 := c.want.toList ++ c.fromVault
def fromStrategy (c : StakedaoParameters) : List UInt8 := c.strategy.toList ++ c.fromWant

end StakedaoParameters

/-- `sizeof(stakedao_parameters_t)` for the size an enumeration has on the target:
the fields before it, padded to its alignment, and the enumeration itself. -/
def sizeofStakedaoParameters (enumSize : Nat) : Nat :=
  (32 + 32 + 20 + 16 + 16 + 16 + 16 + 1 + 1 + (enumSize - 1)) / enumSize * enumSize + enumSize

/-- The static assertion of the header. -/
theorem sizeofStakedaoParameters_le :
    ∀ enumSize ∈ [1, 2, 4], sizeofStakedaoParameters enumSize ≤ 5 * 32 := by
  decide

end StakedaoPlugin
