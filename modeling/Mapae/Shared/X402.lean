import Mapae.Infra.Json
import Mapae.Store.Values

/-!
# x402 on the wire

* `SettleResponse` is the document a seller writes into `Payment-Response`, and `HttpResponse`
  is what the buyer's client sees of an answer
* the extension `payment-identifier` is a name the buyer gives to a payment, in the envelope of the
  payload and not under its signature
-/

namespace Mapae.Shared

open Mapae.Infra Mapae.Store

/-- The network the service runs on. -/
def GIWA_SEPOLIA_CAIP2 : String := "eip155:91342"

/-- The x402 receipt. `transaction` is `""` when no transaction can be named. -/
inductive SettleResponse where
  | success (network payer transaction : String)
  | failure (network : String) (payer : Option String) (transaction errorReason : String)

/-- The receipt as a JSON value. A missing payer is a missing member. -/
def SettleResponse.toJson : SettleResponse → Json
  | .success network payer transaction => .object
      [("success", .bool true), ("network", .string network), ("payer", .string payer),
        ("transaction", .string transaction)]
  | .failure network payer transaction errorReason => .object
      ([("success", .bool false), ("errorReason", .string errorReason),
          ("network", .string network)] ++
        (payer.map fun name => ("payer", Json.string name)).toList ++
        [("transaction", .string transaction)])

def encodePaymentResponseHeader {Wire : Type} (codec : HeaderCodec Wire)
    (receipt : SettleResponse) : Wire :=
  codec.encode receipt.toJson

/-- An answer: its status, its `Payment-Response` header, and its body as the reader parses it.
The body is `none` when reading it throws. -/
structure HttpResponse (Wire : Type) where
  status : Nat
  paymentResponse : Option Wire
  body : Option Json

/-- `response.ok`. -/
def HttpResponse.ok {Wire : Type} (response : HttpResponse Wire) : Bool :=
  decide (200 ≤ response.status ∧ response.status < 300)

/-! ## Reading a receipt back -/

@[simp] theorem SettleResponse.failure_errorReason (network : String) (payer : Option String)
    (transaction errorReason : String) :
    (SettleResponse.failure network payer transaction errorReason).toJson.textField "errorReason"
      = some errorReason := by
  cases payer <;> rfl

@[simp] theorem SettleResponse.failure_transaction (network : String) (payer : Option String)
    (transaction errorReason : String) :
    (SettleResponse.failure network payer transaction errorReason).toJson.field "transaction"
      = some (.string transaction) := by
  cases payer <;> rfl

def PAYMENT_IDENTIFIER_EXTENSION : String := "payment-identifier"

/-- `/^[A-Za-z0-9_-]{16,128}$/`. -/
def isPaymentIdentifier (text : String) : Bool :=
  16 ≤ text.toList.length && text.toList.length ≤ 128 &&
    text.toList.all fun c => isLetterOrDigit c || c == '_' || c == '-'

/-- The JSON schema that goes with the extension. -/
def PAYMENT_IDENTIFIER_SCHEMA : Json := .object
  [("$schema", .string "https://json-schema.org/draft/2020-12/schema"),
    ("type", .string "object"),
    ("properties", .object
      [("required", .object [("type", .string "boolean")]),
        ("id", .object [("type", .string "string"), ("minLength", .number 16 0),
          ("maxLength", .number 128 0)])]),
    ("required", .array [.string "required"])]

inductive PaymentIdentifierRead where
  /-- The payment carries no identifier. -/
  | absent
  /-- It uses the extension and gets its shape wrong. -/
  | malformed
  | present (id : String)

/-- What a payload says under `payment-identifier`. -/
def readPaymentIdentifier (payload : Json) : PaymentIdentifierRead :=
  match (payload.field "extensions").bind (Json.field · PAYMENT_IDENTIFIER_EXTENSION) with
  | none => .absent
  | some entry =>
    match (entry.field "info").filter Json.isObject with
    | none => .malformed
    | some info =>
      match info.field "id" with
      | none => .absent
      | some (.string id) => if isPaymentIdentifier id then .present id else .malformed
      | some _ => .malformed

end Mapae.Shared
