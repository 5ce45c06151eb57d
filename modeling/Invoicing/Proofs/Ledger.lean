import Invoicing.Ledger.Memory

set_option autoImplicit false

/-! # The ledger of payments

What is read from the logs of payments is what was written there, and a ledger of payments holds the logs of each. -/

namespace Invoicing

/-! ## Words -/

namespace Word

theorem length_ofAmount (a : Amount) : (ofAmount a).length = size := Bytes.length_ofNatBE _ _

theorem length_ofAddress (a : Address) : (ofAddress a).length = size := by
  rw [ofAddress, List.length_append, a.length_eq]
  rfl

@[simp] theorem amount?_append (a : Amount) (rest : List UInt8) :
    amount? (ofAmount a ++ rest) = some (a, rest) := by
  have hle : size ≤ (ofAmount a ++ rest).length := by
    rw [List.length_append, length_ofAmount]
    omega
  have htake : (ofAmount a ++ rest).take size = ofAmount a := List.take_left' (length_ofAmount a)
  have hdrop : (ofAmount a ++ rest).drop size = rest := List.drop_left' (length_ofAmount a)
  have hvalue : Bytes.toNatBE (ofAmount a) = a.value := Bytes.toNatBE_ofNatBE a.value_lt
  simp only [amount?, dif_pos hle, htake, hdrop, hvalue]

@[simp] theorem address?_append (a : Address) (rest : List UInt8) :
    address? (ofAddress a ++ rest) = some (a, rest) := by
  have hle : size ≤ (ofAddress a ++ rest).length := by
    rw [List.length_append, length_ofAddress]
    omega
  have htake : (ofAddress a ++ rest).take size = ofAddress a := List.take_left' (length_ofAddress a)
  have hdrop : (ofAddress a ++ rest).drop size = rest := List.drop_left' (length_ofAddress a)
  -- The zero bytes before the address are checked, and are the ones that were written.
  have hpadding : (ofAddress a ++ rest).take padding.length = padding := by
    rw [ofAddress, List.append_assoc]
    exact List.take_left
  have hbytes : (ofAddress a).drop padding.length = a.bytes := List.drop_left
  simp only [address?, dif_pos hle, if_pos hpadding, htake, hdrop, hbytes]

end Word

/-! ## Logs -/

@[simp] theorem Conversion.decode?_encode (c : Conversion) : decode? c.encode = some c := by
  have hlast : Word.amount? (Word.ofAmount c.maxRateTimespan) = some (c.maxRateTimespan, []) := by
    simpa using Word.amount?_append c.maxRateTimespan []
  simp [decode?, encode, List.append_assoc, hlast]

@[simp] theorem Transfer.decode?_encode (t : Transfer) : decode? t.encode = some t := by
  have hlast : Word.address? (Word.ofAddress t.feeAddress) = some (t.feeAddress, []) := by
    simpa using Word.address?_append t.feeAddress []
  simp [decode?, encode, List.append_assoc, hlast]

set_option maxRecDepth 100000 in
/-- The two kinds of logs are told apart by their topics. -/
theorem Conversion.topic_ne : Conversion.topic ≠ Transfer.topic := by decide +kernel

namespace Ledger

/-- The log of what a payment was asked for. -/
def Payment.asked (p : Payment) (reference : Hash) : Log :=
  ⟨p.proxy, [Conversion.topic, reference], p.conversion.encode, p.block, p.transaction⟩

/-- The log of what a payment transferred. -/
def Payment.paid (p : Payment) (reference : Hash) : Log :=
  ⟨p.proxy, [Transfer.topic, reference], p.transfer.encode, p.block, p.transaction⟩

/-! ## Payments -/

/-- Adds the logs of payments. One whose reference is malformed adds none. -/
def payAll (l : Ledger) (ps : List Payment) : Ledger :=
  ps.foldl (fun l p => match l.pay p with
    | .ok l' => l'
    | .error _ => l) l

/-- The logs that a payment adds. -/
def Payment.recorded (p : Payment) : List Log :=
  match Reference.topic p.reference with
  | .ok topic => p.logs topic
  | .error _ => []

theorem payAll_eq (l : Ledger) (ps : List Payment) :
    l.payAll ps = { l with logs := l.logs ++ ps.flatMap Payment.recorded } := by
  induction ps generalizing l with
  | nil => simp [payAll]
  | cons p ps ih =>
    have hstep : l.payAll (p :: ps) = (match l.pay p with
        | .ok l' => l'
        | .error _ => l).payAll ps := rfl
    rw [hstep, ih, List.flatMap_cons]
    cases htopic : Reference.topic p.reference with
    | error e =>
      have hpay : l.pay p = .error e := by
        rw [pay, htopic]
        rfl
      simp [hpay, Payment.recorded, htopic]
    | ok topic =>
      have hpay : l.pay p = .ok { l with logs := l.logs ++ p.logs topic } := by
        rw [pay, htopic]
        rfl
      simp [hpay, Payment.recorded, htopic]

/-- The time of a block, or zero if it is not known. -/
def timeOf (l : Ledger) (block : BlockNumber) : Timestamp := (l.times.lookup block).getD 0

end Ledger

end Invoicing
