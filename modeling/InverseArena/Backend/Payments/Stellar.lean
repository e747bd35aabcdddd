import InverseArena.Backend.Payments.Types
import Mathlib.Algebra.Group.Int.Defs
import Mathlib.Algebra.Group.Nat.Defs

/-!
# The Stellar SDK, as the payment service uses it

What `services/paymentService.ts` reads of a transaction, and the functions of the SDK
that it calls. The SDK's own code is not part of the repository: its functions are
parameters, and what the service relies on is stated of them where it is used.
-/

namespace InverseArena.Backend.Payments

/-- An `xdr.ScAddress`, by the address that the SDK writes for it. -/
structure ScAddress where
  strkey : String
  deriving DecidableEq, Repr

/-- An `xdr.ScVal`: the values of a payout, or another by its kind and encoding. -/
inductive ScVal where
  | u64 (n : ℕ)
  | i128 (z : ℤ)
  | address (a : ScAddress)
  | other (kind xdr : String)
  deriving DecidableEq, Repr

/-- An `xdr.HostFunction`. -/
inductive HostFunction where
  | invokeContract (contractAddress : ScAddress) (functionName : String) (args : List ScVal)
  | other (name : String)
  deriving DecidableEq, Repr

/-- An operation of a transaction. -/
inductive Operation where
  | invokeHostFunction (func : HostFunction)
  | other (type : String)
  deriving DecidableEq, Repr

/-- A `Transaction`: what the service reads of it. -/
structure Transaction where
  source : String
  operations : List Operation
  deriving DecidableEq, Repr

/-- What `TransactionBuilder.fromXDR` returns. -/
inductive Parsed where
  | transaction (tx : Transaction)
  | feeBump
  deriving DecidableEq, Repr

/-- A value of JavaScript; of an object other than an `xdr.ScAddress` only what
    `String` makes of it. -/
inductive JsValue where
  | null
  | undefined
  | boolean (b : Bool)
  | number (text : String)
  | bigint (z : ℤ)
  | string (s : String)
  | scAddress (a : ScAddress)
  | object (text : String)
  deriving DecidableEq, Repr

/-- `String(value)`. -/
def JsValue.text : JsValue → String
  | null => "null"
  | undefined => "undefined"
  | boolean b => if b then "true" else "false"
  | number text => text
  | bigint z => toString z
  | string s => s
  | scAddress _ => "[object Object]"
  | object text => text

/-- The integer types of `nativeToScVal`. -/
inductive IntegerType where
  | u64 | i128
  deriving DecidableEq, Repr

/-- The functions of the SDK that the service calls. -/
structure Sdk where
  /-- `new Contract(contractId)`, by its address. -/
  newContract : String → Except PaymentError ScAddress
  /-- `new Address(address).toScAddress()`. -/
  newAddress : String → Except PaymentError ScAddress
  /-- `nativeToScVal(value, { type })`. -/
  nativeToScVal : ℤ → IntegerType → Except PaymentError ScVal
  /-- `scValToNative(value)`. -/
  scValToNative : ScVal → Except PaymentError JsValue
  /-- `Address.fromScAddress(value).toString()`. -/
  fromScAddress : JsValue → Except PaymentError String
  /-- `TransactionBuilder.fromXDR(xdr, networkPassphrase)`. -/
  fromXDR : String → Except PaymentError Parsed
  /-- `transaction.sign(Keypair.fromSecret(secret))` and then `transaction.toXDR()`. -/
  sign : String → String → Except PaymentError String

/-! ## A sample SDK -/

/-- An SDK that takes natural numbers modulo `2 ^ 64` for `u64` and refuses negative ones,
    and whose transactions are texts. -/
def sampleSdk (parse : String → Option Parsed) : Sdk where
  newContract contractId := .ok ⟨contractId⟩
  newAddress address := .ok ⟨address⟩
  nativeToScVal z type :=
    match type with
    | .u64 => if 0 ≤ z then .ok (.u64 (z.toNat % 2 ^ 64)) else .error (.rejected none)
    | .i128 => if -2 ^ 127 ≤ z ∧ z < 2 ^ 127 then .ok (.i128 z) else .error (.rejected none)
  scValToNative value :=
    match value with
    | .u64 n => .ok (.bigint n)
    | .i128 z => .ok (.bigint z)
    | .address a => .ok (.string a.strkey)
    | .other kind _ => .ok (.object kind)
  fromScAddress value :=
    match value with
    | .scAddress a => .ok a.strkey
    | _ => .error (.rejected (some "address.switch is not a function"))
  fromXDR xdr :=
    match parse xdr with
    | some parsed => .ok parsed
    | none => .error (.rejected none)
  sign secret xdr := .ok (secret ++ xdr)

end InverseArena.Backend.Payments
