import Kael.Lib.Runs
import Kael.Orderbook.Book
import Kael.Orderbook.Wire

/-!
# Submitting Orders

`server.rs`: a request is parsed, stamped with its time of arrival, verified and
put into the book, or it is rejected with a status and a text. The three
collections of the book stay in step over every history of requests, and no
signed order enters twice, however it is written (`book_ingests`).
-/

namespace Kael.Orderbook

/-- The status code and the text of a rejection. -/
structure Rejection where
  status : Nat
  message : String
deriving DecidableEq

def badRequest : Nat := 400

def conflict : Nat := 409

def unprocessableEntity : Nat := 422

/-- `{other:?}`. -/
def VerifyError.debug : VerifyError → String
  | .badSignatureLength => "BadSignatureLength"
  | .malleableS => "MalleableS"
  | .invalidV => "InvalidV"
  | .badSignature => "BadSignature"
  | .zeroSigner => "ZeroSigner"
  | .signerNotMaker => "SignerNotMaker"
  | .orderExpired => "OrderExpired"

def verifyMsg (v : VerifyError) : String :=
  match v with
  | .orderExpired => "expired order"
  | .signerNotMaker => "signature does not match maker"
  | .malleableS => "malleable signature (high s)"
  | other => "signature rejected: " ++ other.debug

section Server

variable (cr : Crypto) (k : K256)

/-- A request that arrives at time `now`. -/
def submitOrder (b : Book) (req : SubmitRequest) (now : U64) :
    Book × Except Rejection SubmitResponse :=
  match req.order.intoOrder now with
  | .error e => (b, .error ⟨badRequest, "invalid order: " ++ e.debug⟩)
  | .ok order =>
    match parseSignature req.signature with
    | .error e => (b, .error ⟨badRequest, "invalid signature: " ++ e.debug⟩)
    | .ok signature =>
      match b.submit (verify cr k) order signature now with
      | (b', .ok hash) =>
        (b', .ok ⟨true, "0x" ++ String.ofList (Text.hexEncode (BigEndian.bytes 32 hash))⟩)
      | (b', .error .duplicate) => (b', .error ⟨conflict, "duplicate order"⟩)
      | (b', .error (.verify v)) => (b', .error ⟨unprocessableEntity, verifyMsg v⟩)

/-- A request and its time of arrival. -/
abbrev Arrival := SubmitRequest × U64

def arrive (b : Book) (a : Arrival) : Book := (submitOrder cr k b a.1 a.2).1

/-- The book after a history of requests. -/
def ingested (history : List Arrival) : Book := Runs.stateAfter (arrive cr k) Book.new history

end Server

/-! ## What a request does -/

/-- The request is this order, signed by its maker and in time. -/
structure Carries (cr : Crypto) (k : K256) (a : Arrival) (o : Order) : Prop where
  order : a.1.order.intoOrder a.2 = .ok o
  signed : ∃ signature, parseSignature a.1.signature = .ok signature ∧
    verify cr k o signature a.2 = .ok (digest cr o)

section Requests

variable {cr : Crypto} {k : K256} {b : Book} {a : Arrival} {o : Order}

/-- **What a request can do**: it is rejected and changes nothing, or its order
    is new and is appended. -/
theorem submitOrder_cases (cr : Crypto) (k : K256) (b : Book) (a : Arrival) :
    (∃ rejection, submitOrder cr k b a.1 a.2 = (b, .error rejection)) ∨
    ∃ o response, Carries cr k a o ∧ digest cr o ∉ b.seen ∧
      submitOrder cr k b a.1 a.2 =
        (⟨b.orders ++ [o], b.hashes ++ [digest cr o], digest cr o :: b.seen⟩, .ok response) := by
  unfold submitOrder
  -- An order that does not parse never reaches the verifier.
  cases horder : a.1.order.intoOrder a.2 with
  | error e => exact .inl ⟨_, rfl⟩
  | ok o =>
    dsimp only
    cases hsignature : parseSignature a.1.signature with
    | error e => exact .inl ⟨_, rfl⟩
    | ok signature =>
      dsimp only
      unfold Book.submit
      cases hverify : verify cr k o signature a.2 with
      | error v => exact .inl ⟨_, rfl⟩
      | ok hash =>
        dsimp only
        -- The hash that the verifier returns is the order's own digest.
        obtain ⟨-, -, -, -, -, -, rfl⟩ := verify_ok.mp hverify
        by_cases hseen : digest cr o ∈ b.seen
        · rw [if_pos hseen]
          exact .inl ⟨_, rfl⟩
        · rw [if_neg hseen]
          exact .inr ⟨o, _, ⟨horder, signature, hsignature, hverify⟩, hseen, rfl⟩

theorem Order.SameSigned.digest {o o' : Order} (h : o.SameSigned o') :
    Orderbook.digest cr o' = Orderbook.digest cr o :=
  -- The time of arrival is not encoded.
  show Orderbook.digest cr o' = Orderbook.digest cr { o with createdAt := o'.createdAt } from
    congrArg (Orderbook.digest cr) (Eq.symm h)

/-- An order whose digest was seen is rejected, whatever the signature. -/
theorem submitOrder_seen (horder : a.1.order.intoOrder a.2 = .ok o) (hseen : digest cr o ∈ b.seen) :
    ∃ rejection, submitOrder cr k b a.1 a.2 = (b, .error rejection) := by
  obtain hrejected | ⟨o', response, hcarries, hnew, -⟩ := submitOrder_cases cr k b a
  · exact hrejected
  · obtain rfl : o = o' := Except.ok.inj (horder.symm.trans hcarries.order)
    exact absurd hseen hnew

/-- An order that is signed and new is appended. -/
theorem arrive_of_carries (hcarries : Carries cr k a o) (hnew : digest cr o ∉ b.seen) :
    arrive cr k b a = ⟨b.orders ++ [o], b.hashes ++ [digest cr o], digest cr o :: b.seen⟩ := by
  obtain ⟨signature, hsignature, hverify⟩ := hcarries.signed
  simp only [arrive, submitOrder, hcarries.order, hsignature, Book.submit, hverify, if_neg hnew]

theorem arrive_seen {h : Bytes32} (hseen : h ∈ b.seen) : h ∈ (arrive cr k b a).seen := by
  unfold arrive
  obtain ⟨rejection, hrejected⟩ | ⟨o, response, -, -, haccepted⟩ := submitOrder_cases cr k b a
  · rw [hrejected]
    exact hseen
  · rw [haccepted]
    exact List.mem_cons_of_mem _ hseen

end Requests

/-! ## Histories -/

/-- The signature of 65 bytes recovers to the maker. -/
def SignedByMaker (cr : Crypto) (k : K256) (o : Order) (signature : List Byte) : Prop :=
  signature.length = 65 ∧ o.maker ≠ zeroAddress ∧
    ∃ sig key, k.signature (signature.take 64) = some sig ∧
      k.recover (digest cr o) sig (signature.getD 64 0 - 27#8) = some key ∧
      addressOf cr key = o.maker

/-- The three collections are in step, and every order arrived signed. -/
structure Book.Ingested (cr : Crypto) (k : K256) (history : List Arrival) (b : Book) : Prop where
  hashes : b.hashes = b.orders.map (digest cr)
  nodup : b.hashes.Nodup
  seen : ∀ h, h ∈ b.seen ↔ h ∈ b.hashes
  carried : ∀ o ∈ b.orders, ∃ a ∈ history, Carries cr k a o

/-- The second request has the signed fields of the first. -/
def Resubmits (a a' : Arrival) : Prop :=
  ∃ o o', a.1.order.intoOrder a.2 = .ok o ∧ a'.1.order.intoOrder a'.2 = .ok o' ∧ o.SameSigned o'

section Histories

variable {cr : Crypto} {k : K256} {b : Book} {a a' : Arrival} {history before between : List Arrival}

theorem Carries.signedByMaker {o : Order} (h : Carries cr k a o) :
    o.createdAt = a.2 ∧ o.createdAt ≤ o.validUntil ∧
    ∃ signature, parseSignature a.1.signature = .ok signature ∧
      SignedByMaker cr k o signature := by
  obtain ⟨horder, signature, hsignature, hverify⟩ := h
  have htime := OrderDto.createdAt_of_intoOrder horder
  obtain ⟨hlength, -, -, hrecovers, hmaker, hvalid, -⟩ := verify_ok.mp hverify
  exact ⟨htime, htime ▸ hvalid, signature, hsignature, hlength, hmaker, hrecovers⟩

theorem ingested_concat (history : List Arrival) (a : Arrival) :
    ingested cr k (history ++ [a]) = arrive cr k (ingested cr k history) a := List.foldl_concat ..

/-- Step rule. -/
theorem Book.Ingested.arrive (h : b.Ingested cr k history) (a : Arrival) :
    (Orderbook.arrive cr k b a).Ingested cr k (history ++ [a]) := by
  unfold Orderbook.arrive
  obtain ⟨rejection, hrejected⟩ | ⟨o, response, hcarries, hnew, haccepted⟩ :=
    submitOrder_cases cr k b a
  -- A rejected arrival leaves the book as it was.
  · rw [hrejected]
    refine ⟨h.hashes, h.nodup, h.seen, ?_⟩
    intro o ho
    obtain ⟨a', ha', hcarries⟩ := h.carried o ho
    exact ⟨a', List.mem_append_left _ ha', hcarries⟩
  · rw [haccepted]
    refine ⟨by simp [h.hashes], ?_, ?_, ?_⟩
    -- A new digest is in neither list.
    · rw [h.seen] at hnew
      rw [List.nodup_append]
      refine ⟨h.nodup, List.nodup_singleton _, ?_⟩
      intro x hx y hy hxy
      rw [hxy, List.mem_singleton.mp hy] at hx
      exact hnew hx
    · intro x
      rw [List.mem_cons, List.mem_append, List.mem_singleton, h.seen, or_comm]
    · intro o' ho'
      rcases List.mem_append.mp ho' with hold | hlast
      · obtain ⟨a', ha', hcarries'⟩ := h.carried o' hold
        exact ⟨a', List.mem_append_left _ ha', hcarries'⟩
      · rw [List.mem_singleton.mp hlast]
        exact ⟨a, List.mem_append_right _ (List.mem_singleton.mpr rfl), hcarries⟩

/-- Run rule. -/
theorem ingested_ingested (cr : Crypto) (k : K256) (history : List Arrival) :
    (ingested cr k history).Ingested cr k history := by
  induction history using List.reverseRecOn with
  | nil => exact ⟨rfl, List.nodup_nil, fun _ => Iff.rfl, fun _ ho => by cases ho⟩
  | append_singleton history a ih =>
    rw [ingested_concat]
    exact ih.arrive a

/-- What was seen once is seen ever after. -/
theorem ingested_seen {h : Bytes32} (hseen : h ∈ (ingested cr k before).seen) :
    h ∈ (ingested cr k (before ++ between)).seen := by
  induction between using List.reverseRecOn with
  | nil => rwa [List.append_nil]
  | append_singleton between a ih =>
    rw [← List.append_assoc, ingested_concat]
    exact arrive_seen ih

/-- An accepted request leaves its digest. -/
theorem seen_of_accepted {response : SubmitResponse} {o : Order}
    (haccepted : (submitOrder cr k b a.1 a.2).2 = .ok response)
    (horder : a.1.order.intoOrder a.2 = .ok o) : digest cr o ∈ (arrive cr k b a).seen := by
  unfold arrive
  obtain ⟨rejection, hrejected⟩ | ⟨o', response', hcarries, -, hstored⟩ := submitOrder_cases cr k b a
  · rw [hrejected] at haccepted
    cases haccepted
  · obtain rfl : o = o' := Except.ok.inj (horder.symm.trans hcarries.order)
    rw [hstored]
    exact List.mem_cons_self ..

/-- **No replay**: a signed order that was accepted once is rejected ever after. -/
theorem resubmission_rejected {response : SubmitResponse}
    (haccepted : (submitOrder cr k (ingested cr k before) a.1 a.2).2 = .ok response)
    (hresubmits : Resubmits a a') :
    ∃ rejection, submitOrder cr k (ingested cr k (before ++ a :: between)) a'.1 a'.2 =
      (ingested cr k (before ++ a :: between), .error rejection) := by
  obtain ⟨o, o', horder, horder', hsame⟩ := hresubmits
  apply submitOrder_seen horder'
  rw [hsame.digest]
  have hseen := seen_of_accepted haccepted horder
  rw [← ingested_concat] at hseen
  have hlater := @ingested_seen cr k (before ++ [a]) between _ hseen
  rwa [List.append_assoc, List.singleton_append] at hlater

/-- Another rendering of the order, at another time, resubmits it. -/
theorem resubmits_of_renders {o : Order} (horder : a.1.order.intoOrder a.2 = .ok o)
    (h : a.1.order.Renders a'.1.order) : Resubmits a a' := by
  refine ⟨o, { o with createdAt := a'.2 }, horder, ?_, rfl⟩
  rw [OrderDto.intoOrder_renders h a.2 a'.2, horder]
  rfl

end Histories

/-- **The book's ingestion invariant**, over every history of requests:

    1. orders and hashes are parallel, each hash is the digest of its order, no
       hash comes twice, and the hashes are what was seen;
    2. each order arrived in a request whose signature is its maker's, at the
       time it is stamped with and before it expired;
    3. a rejected request leaves the book unchanged;
    4. after a request was accepted, every later request with the same signed
       fields is rejected, and so is every other rendering of its order. -/
theorem book_ingests (cr : Crypto) (k : K256) (history : List Arrival) :
    ((ingested cr k history).hashes.length = (ingested cr k history).orders.length ∧
      (ingested cr k history).hashes = (ingested cr k history).orders.map (digest cr) ∧
      (ingested cr k history).hashes.Nodup ∧
      ∀ h, h ∈ (ingested cr k history).seen ↔ h ∈ (ingested cr k history).hashes) ∧
    (∀ o ∈ (ingested cr k history).orders, ∃ a ∈ history,
      a.1.order.intoOrder a.2 = .ok o ∧ o.createdAt = a.2 ∧ o.createdAt ≤ o.validUntil ∧
      ∃ signature, parseSignature a.1.signature = .ok signature ∧
        SignedByMaker cr k o signature) ∧
    (∀ a rejection, (submitOrder cr k (ingested cr k history) a.1 a.2).2 = .error rejection →
      ingested cr k (history ++ [a]) = ingested cr k history) ∧
    ∀ before a between a' response, history = before ++ a :: between →
      (submitOrder cr k (ingested cr k before) a.1 a.2).2 = .ok response →
      (Resubmits a a' ∨ a.1.order.Renders a'.1.order) →
      ∃ rejection, submitOrder cr k (ingested cr k history) a'.1 a'.2 =
        (ingested cr k history, .error rejection) := by
  have hinv := ingested_ingested cr k history
  refine ⟨⟨?_, hinv.hashes, hinv.nodup, hinv.seen⟩, ?_, ?_, ?_⟩
  · rw [hinv.hashes, List.length_map]
  · intro o ho
    obtain ⟨a, ha, hcarries⟩ := hinv.carried o ho
    exact ⟨a, ha, hcarries.order, hcarries.signedByMaker⟩
  · intro a rejection hrejection
    rw [ingested_concat]
    unfold arrive
    obtain ⟨rejection', hrejected⟩ | ⟨o, response, -, -, haccepted⟩ :=
      submitOrder_cases cr k (ingested cr k history) a
    · rw [hrejected]
    · rw [haccepted] at hrejection
      cases hrejection
  · intro before a between a' response hsplit haccepted hagain
    subst hsplit
    apply resubmission_rejected haccepted
    obtain hresubmits | hrenders := hagain
    · exact hresubmits
    · -- What was accepted was parsed.
      obtain ⟨rejection, hrejected⟩ | ⟨o, response', hcarries, -, -⟩ :=
        submitOrder_cases cr k (ingested cr k before) a
      · rw [hrejected] at haccepted
        cases haccepted
      · exact resubmits_of_renders hcarries.order hrenders

namespace Sample

/-- The test vector as text. -/
def dto : OrderDto where
  maker := "06884b215de85be18f99a04d05108524edc88d82"
  sellToken := "1111111111111111111111111111111111111111"
  sellChainId := 1
  sellAmount := "1000000000000000000"
  buyToken := "2222222222222222222222222222222222222222"
  buyChainId := 10
  buyAmount := "2000000000"
  validUntil := 2000000000
  nonce := 42

/-- The same order in another hand. -/
def dtoAgain : OrderDto := { dto with
  maker := "0x06884B215DE85BE18F99A04D05108524EDC88D82"
  sellAmount := "+0001000000000000000000" }

def signatureText : String :=
  "0x30ce4ef4a9e0ffa123e5bf6e588550416fe77bd947cf2bd8203453591f2ca6ce" ++
    "22be7efbadb7f464cdaeb3ad68c2ad60d750e7dfe1572f9ea6f4d9ba5520d42e1c"

def response : SubmitResponse :=
  ⟨true, "0x6b63f6d4e04665700cac5a401bd965d8ff95b2ee26e0ba8924cd79d57f50e3a1"⟩

end Sample

/-- The vector is accepted; seven seconds later, and written differently, it is
    rejected. -/
theorem book_ingests_vector_once :
    (submitOrder Sample.crypto Sample.k256 Book.new ⟨Sample.dto, Sample.signatureText⟩
      1000000000).2 = .ok Sample.response ∧
    ∃ rejection, (submitOrder Sample.crypto Sample.k256
      (ingested Sample.crypto Sample.k256 [(⟨Sample.dto, Sample.signatureText⟩, 1000000000)])
      ⟨Sample.dtoAgain, Sample.signatureText⟩ 1000000007).2 = .error rejection := by
  -- The second text spells the same values, and its digest is in the book.
  have hrenders : Sample.dto.Renders Sample.dtoAgain :=
    ⟨by decide +kernel, rfl, rfl, by decide +kernel, rfl, rfl, ⟨Iff.rfl, rfl⟩, rfl, rfl⟩
  have haccepted : (submitOrder Sample.crypto Sample.k256 Book.new
      ⟨Sample.dto, Sample.signatureText⟩ 1000000000).2 = .ok Sample.response := by decide +kernel
  refine ⟨haccepted, ?_⟩
  obtain ⟨rejection, hrejected⟩ := (book_ingests Sample.crypto Sample.k256
    [(⟨Sample.dto, Sample.signatureText⟩, 1000000000)]).2.2.2 []
      (⟨Sample.dto, Sample.signatureText⟩, 1000000000) []
      (⟨Sample.dtoAgain, Sample.signatureText⟩, 1000000007) Sample.response rfl haccepted
      (.inr hrenders)
  exact ⟨rejection, congrArg Prod.snd hrejected⟩

end Kael.Orderbook
