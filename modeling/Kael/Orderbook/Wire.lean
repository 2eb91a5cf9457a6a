import Kael.Lib.Text
import Kael.Orderbook.Eip712

/-!
# Orders as Text

`wire.rs`: what arrives is an order of texts. Addresses are hexadecimal in
either case, with or without `0x`; amounts are decimal, with leading zeros or a
plus sign if one likes. So one signed order has many texts (`intoOrder_renders`),
and the time of arrival is stamped on it besides.
-/

namespace Kael.Orderbook

open Text (hexDecode hexEncode trimStart0x parseNat dropPlus dropZeros)

structure OrderDto where
  maker : String
  sellToken : String
  sellChainId : U64
  sellAmount : String
  buyToken : String
  buyChainId : U64
  buyAmount : String
  validUntil : U64
  nonce : U64
deriving DecidableEq

structure SubmitRequest where
  order : OrderDto
  signature : String
deriving DecidableEq

structure SubmitResponse where
  accepted : Bool
  orderHash : String
deriving DecidableEq

/-- The errors name the field. -/
inductive DtoError where
  | badAddress (field : String)
  | badAmount (field : String)
  | badHex
deriving DecidableEq

/-- `{e:?}`. -/
def DtoError.debug : DtoError → String
  | .badAddress field => "BadAddress(\"" ++ field ++ "\")"
  | .badAmount field => "BadAmount(\"" ++ field ++ "\")"
  | .badHex => "BadHex"

/-! ## Parsing -/

def parseAddr (s field : String) : Except DtoError Address :=
  match hexDecode (trimStart0x s.toList) with
  | none => .error (.badAddress field)
  | some bytes =>
    if bytes.length ≠ 20 then .error (.badAddress field)
    else .ok (BitVec.ofNat 160 (BigEndian.value bytes))

def parseU128 (s field : String) : Except DtoError U128 :=
  match parseNat (2 ^ 128) s.toList with
  | none => .error (.badAmount field)
  | some n => .ok (BitVec.ofNat 128 n)

/-- The order with its time of arrival; the fields are parsed in their order. -/
def OrderDto.intoOrder (dto : OrderDto) (createdAt : U64) : Except DtoError Order :=
  match parseAddr dto.maker "maker" with
  | .error e => .error e
  | .ok maker =>
    match parseAddr dto.sellToken "sell_token" with
    | .error e => .error e
    | .ok sellToken =>
      match parseU128 dto.sellAmount "sell_amount" with
      | .error e => .error e
      | .ok sellAmount =>
        match parseAddr dto.buyToken "buy_token" with
        | .error e => .error e
        | .ok buyToken =>
          match parseU128 dto.buyAmount "buy_amount" with
          | .error e => .error e
          | .ok buyAmount =>
            .ok ⟨maker, sellToken, dto.sellChainId, sellAmount, buyToken, dto.buyChainId, buyAmount,
              dto.validUntil, dto.nonce, createdAt⟩

def parseSignature (s : String) : Except DtoError (List Byte) :=
  match hexDecode (trimStart0x s.toList) with
  | none => .error .badHex
  | some bytes => .ok bytes

/-! ## Renderings -/

/-- Hexadecimal texts that differ in case and in `0x` only. -/
def HexRenders (s t : String) : Prop :=
  (trimStart0x s.toList).map Char.toLower = (trimStart0x t.toList).map Char.toLower

/-- Decimal texts that differ in leading zeros and in the plus sign only. -/
def DecimalRenders (s t : String) : Prop :=
  (dropPlus s.toList = [] ↔ dropPlus t.toList = []) ∧
    dropZeros (dropPlus s.toList) = dropZeros (dropPlus t.toList)

instance (s t : String) : Decidable (HexRenders s t) := inferInstanceAs (Decidable (_ = _))

instance (s t : String) : Decidable (DecimalRenders s t) :=
  inferInstanceAs (Decidable ((_ ↔ _) ∧ _ = _))

/-- Two texts of one order. -/
structure OrderDto.Renders (a b : OrderDto) : Prop where
  maker : HexRenders a.maker b.maker
  sellToken : HexRenders a.sellToken b.sellToken
  sellChainId : a.sellChainId = b.sellChainId
  sellAmount : DecimalRenders a.sellAmount b.sellAmount
  buyToken : HexRenders a.buyToken b.buyToken
  buyChainId : a.buyChainId = b.buyChainId
  buyAmount : DecimalRenders a.buyAmount b.buyAmount
  validUntil : a.validUntil = b.validUntil
  nonce : a.nonce = b.nonce

theorem OrderDto.Renders.refl (dto : OrderDto) : dto.Renders dto :=
  ⟨rfl, rfl, rfl, ⟨Iff.rfl, rfl⟩, rfl, rfl, ⟨Iff.rfl, rfl⟩, rfl, rfl⟩

theorem parseAddr_renders {s t : String} (h : HexRenders s t) (field : String) :
    parseAddr s field = parseAddr t field := by
  unfold parseAddr
  rw [Text.hexDecode_congr h]

theorem parseU128_renders {s t : String} (h : DecimalRenders s t) (field : String) :
    parseU128 s field = parseU128 t field := by
  unfold parseU128
  rw [Text.parseNat_congr (by decide) h.1 h.2]

/-- What is parsed is the number, not a part of it. -/
theorem parseU128_exact {s field : String} {v : U128} :
    parseU128 s field = .ok v ↔ parseNat (2 ^ 128) s.toList = some v.toNat := by
  unfold parseU128
  cases hparse : parseNat (2 ^ 128) s.toList with
  | none => simp
  | some n =>
    have hlt := Text.parseNat_lt (by decide) hparse
    rw [Except.ok.injEq, Option.some.injEq, ← BitVec.toNat_inj, BitVec.toNat_ofNat,
      Nat.mod_eq_of_lt hlt]

/-- Renderings of one order are parsed into it, whenever they arrive. -/
theorem OrderDto.intoOrder_renders {a b : OrderDto} (h : a.Renders b) (createdAt createdAt' : U64) :
    b.intoOrder createdAt' =
      (a.intoOrder createdAt).map fun o => { o with createdAt := createdAt' } := by
  unfold intoOrder
  -- Each field is read the same way from both texts, so the parsers fail together.
  rw [parseAddr_renders h.maker, parseAddr_renders h.sellToken, parseAddr_renders h.buyToken,
    parseU128_renders h.sellAmount, parseU128_renders h.buyAmount, h.sellChainId, h.buyChainId,
    h.validUntil, h.nonce]
  cases parseAddr b.maker "maker" with
  | error e => rfl
  | ok maker =>
    cases parseAddr b.sellToken "sell_token" with
    | error e => rfl
    | ok sellToken =>
      cases parseU128 b.sellAmount "sell_amount" with
      | error e => rfl
      | ok sellAmount =>
        cases parseAddr b.buyToken "buy_token" with
        | error e => rfl
        | ok buyToken => cases parseU128 b.buyAmount "buy_amount" <;> rfl

/-- An order is stamped with the time it was given. -/
theorem OrderDto.createdAt_of_intoOrder {dto : OrderDto} {createdAt : U64} {o : Order}
    (h : dto.intoOrder createdAt = .ok o) : o.createdAt = createdAt := by
  have hsame := OrderDto.intoOrder_renders (OrderDto.Renders.refl dto) createdAt createdAt
  rw [h] at hsame
  exact congrArg Order.createdAt (Except.ok.inj hsame)

end Kael.Orderbook
