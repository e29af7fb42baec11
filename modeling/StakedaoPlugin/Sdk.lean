import StakedaoPlugin.Lib.DecimalText
import StakedaoPlugin.Parameters

/-! The Ethereum app's side of the plugin interface: the messages of
`eth_plugin_interface.h` and the functions the plugin calls. The functions are
not part of the plugin, so they are a parameter of everything that uses them. -/
namespace StakedaoPlugin
open CMemory DecimalText

inductive PluginResult where
  | error
  | unavailable
  | ok
deriving DecidableEq

inductive UiType where
  | amountAddress
  | generic
deriving DecidableEq

/-- `txInt256_t`; the app takes no integer of more than 32 bytes. -/
structure TxInt256 where
  value : Word
  length : UInt8
  length_le : length.toNat ≤ 32
deriving DecidableEq

/-- The bytes of the integer that `amountToString` is told of; all of them are there. -/
def TxInt256.bytes (v : TxInt256) : List UInt8 := v.value.toList.take v.length.toNat

/-- The fields of `txContent_t` that the plugin reads. -/
structure TxContent where
  destination : Address
  value : TxInt256
deriving DecidableEq

/-- `ethPluginInitContract_t` -/
structure EthPluginInitContract where
  interfaceVersion : Nat
  pluginContextLength : Nat
  selector : Selector
  txContent : TxContent
  result : PluginResult
deriving DecidableEq

/-- `ethPluginProvideParameter_t` -/
structure EthPluginProvideParameter where
  parameter : Word
  result : PluginResult
deriving DecidableEq

/-- `ethPluginFinalize_t` -/
structure EthPluginFinalize where
  numScreens : UInt8
  uiType : UiType
  result : PluginResult
deriving DecidableEq

/-- `ethQueryContractID_t` -/
structure EthQueryContractID where
  name : Buffer
  version : Buffer
  result : PluginResult
deriving DecidableEq

/-- `ethQueryContractUI_t`; `titleLength` and `msgLength` are the lengths of the buffers. -/
structure EthQueryContractUI where
  txContent : TxContent
  screenIndex : UInt8
  title : Buffer
  msg : Buffer
  result : PluginResult
deriving DecidableEq

/-- What the plugin takes from the Ethereum app and the target. `amountToString`
gives the text it writes, terminated, into a buffer of the given size, or `none`
when it throws; `getEthAddressStringFromBinary` gives the bytes it writes. -/
structure Sdk where
  interfaceVersionLatest : Nat
  enumSize : Nat
  copyAddress : Word → Address
  amountToString : List UInt8 → UInt8 → List UInt8 → UInt8 → Option (List UInt8)
  getEthAddressStringFromBinary : Address → UInt64 → List UInt8

/-- There is no ticker, or the buffer does not end with it. -/
def LeavesRoom (ticker : List UInt8) (size : Nat) : Prop := ticker = [] ∨ ticker.length < size

instance (ticker : List UInt8) (size : Nat) : Decidable (LeavesRoom ticker size) :=
  inferInstanceAs (Decidable (_ ∨ _))

/-- The documented behaviour of `amountToString`: with an empty ticker it writes
the exact decimal text, a buffer of 100 bytes has room for every 256-bit amount
with up to 18 decimals, and a text is terminated within its buffer where the
ticker leaves room in it. What is written behind a ticker that fills the buffer
is left open. -/
structure Sdk.Lawful (sdk : Sdk) : Prop where
  exact : ∀ amount decimals size text, sdk.amountToString amount decimals [] size = some text →
    text = decimalText decimals.toNat (beNat amount)
  fits : ∀ amount decimals ticker size text, LeavesRoom ticker size.toNat →
    sdk.amountToString amount decimals ticker size = some text → text.length < size.toNat
  room : ∀ amount decimals size, amount.length ≤ 32 → decimals.toNat ≤ 18 → 100 ≤ size.toNat →
    (sdk.amountToString amount decimals [] size).isSome

def hexByte (d : UInt8) : UInt8 := if d < 10 then 48 + d else 87 + d

/-- The bytes that a text takes with its terminator, if there is one. -/
def extent (text : Option (List UInt8)) : Nat := text.elim 0 fun text => text.length + 1

/-- A target on which the laws hold. Behind a ticker that fills the buffer the text is
written past its end; the address string is left without its checksum case. -/
def referenceSdk : Sdk where
  interfaceVersionLatest := 5
  enumSize := 1
  copyAddress w := arrayCopy (Vector.replicate 20 0) w (32 - 20) 20
  amountToString amount decimals ticker size :=
    let text := ticker ++ decimalText decimals.toNat (beNat amount)
    if LeavesRoom ticker size.toNat → text.length < size.toNat then some text else none
  getEthAddressStringFromBinary address _ :=
    (address.toList.flatMap fun b => [hexByte (b / 16), hexByte (b % 16)]) ++ [0]

theorem decimalText_beNat_length_lt (amount : List UInt8) (k : Nat) (hl : amount.length ≤ 32)
    (hk : k ≤ 18) : (decimalText k (beNat amount)).length < 100 := by
  have hb : beNat amount < 10 ^ 78 := by
    calc
      beNat amount < 256 ^ amount.length := beNat_lt amount
      _ ≤ 256 ^ 32 := Nat.pow_le_pow_right (by omega) hl
      _ < 10 ^ 78 := by norm_num
  have h := decimalText_length_le k (beNat amount) 78 (by omega) hb
  omega

theorem referenceSdk_lawful : referenceSdk.Lawful where
  exact := by
    intro amount decimals size text h
    simp only [referenceSdk, Option.ite_none_right_eq_some, Option.some.injEq] at h
    simpa using h.2.symm
  fits := by
    intro amount decimals ticker size text hroom h
    simp only [referenceSdk, Option.ite_none_right_eq_some, Option.some.injEq] at h
    rw [← h.2]
    exact h.1 hroom
  room := by
    intro amount decimals size hl hd hs
    have h := decimalText_beNat_length_lt amount decimals.toNat hl hd
    have hlt : (decimalText decimals.toNat (beNat amount)).length < size.toNat := by omega
    simp [referenceSdk, hlt]

/-- A transaction that sends no value. -/
def callTo (destination : Address) : TxContent :=
  ⟨destination, ⟨Vector.replicate 32 0, 0, Nat.zero_le 32⟩⟩

end StakedaoPlugin
