import SaltedHash.Prompt

/-!
# Answers of one character over and over

Of such an answer only the character and a number need to be known. If it has more octets than are hashed
with a salt, asking for a record stops at it.
-/

namespace SaltedHash

theorem Text.utf8?_replicate {c : CodePoint} (h : CodePoint.isSurrogate c = false) (n : Nat) :
    utf8? (List.replicate n c) = some ((List.replicate n c).flatMap CodePoint.utf8) := by
  have hclear : (List.replicate n c).any CodePoint.isSurrogate = false := by
    rw [List.any_replicate, h, ite_self]
  rw [utf8?, hclear]
  rfl

theorem Text.length_flatMap_replicate (n : Nat) (c : CodePoint) :
    ((List.replicate n c).flatMap CodePoint.utf8).length = n * c.utf8.length := by
  rw [List.length_flatMap, List.map_replicate, List.sum_replicate_nat]

theorem Sha1.Context.bitCount_absorb_salt {s : Octets} (h : s.length = Record.saltSize) :
    (fresh.absorb s).bitCount = 64 := by
  match s, h with
  | [s₀, s₁, s₂, s₃, s₄, s₅, s₆, s₇], rfl =>
    have hnone : [s₀, s₁, s₂, s₃, s₄, s₅, s₆, s₇].drop fresh.room = [] := rfl
    rw [absorb, hnone, absorb]
    rfl

theorem Sha1.saltedDigest_of_tooLong {s : Octets} (hs : s.length = Record.saltSize) {t : Text}
    {p : Octets} (hp : Text.utf8? t = some p) (hlong : maxMessageOctets < 8 + p.length) :
    saltedDigest (.octets s) (.text t) = .error (.input .overCeiling) := by
  have hplain : plaintextOctets (.text t) = .ok p := by simp only [plaintextOctets, hp]
  have hsalt : saltOctets (.octets s) = .ok s := rfl
  have hfirst : Context.fresh.extend s = .ok (Context.fresh.absorb s) := by
    rw [Context.extend, hs]
    rfl
  have hsecond : (Context.fresh.absorb s).extend p = .error (.input .overCeiling) := by
    have hfull : ¬ (Context.fresh.absorb s).bitCount / 8 + (p.length : Int) ≤ maxMessageOctets := by
      rw [Context.bitCount_absorb_salt hs]
      omega
    rw [Context.extend, Context.fits, decide_eq_false hfull]
    rfl
  rw [saltedDigest, hplain, hsalt]
  show (Context.fresh.extend s >>= fun salted => _) = _
  rw [hfirst]
  show ((Context.fresh.absorb s).extend p >>= fun full => _) = _
  rw [hsecond]
  rfl

theorem Record.ofPlaintext_of_tooLong {s : Octets} (hs : s.length = saltSize) {t : Text}
    {p : Octets} (hp : Text.utf8? t = some p) (hlong : maxMessageOctets < 8 + p.length) :
    ofPlaintext (.octets s) (.text t) = ⟨.error (.input .overCeiling), []⟩ := by
  have hcount : Datum.count (.octets s) = .ok saltSize := congrArg Except.ok hs
  simp only [ofPlaintext, hcount, ne_eq, not_true_eq_false, if_false,
    Sha1.saltedDigest_of_tooLong hs hp hlong]

namespace Prompt

def recordRepeated [Cryptography] (supply : Salt.Supply) (n : Nat) (c : CodePoint)
    (rest : List Answer) : Dialogue Record :=
  if !CodePoint.isSurrogate c && maxMessageOctets < 8 + n * c.utf8.length then
    .ended (.error (.fault (.input .overCeiling))) [first] [] (supply.salt Record.saltSize).2 rest
  else record supply (.given (.text (List.replicate n c)) :: rest)

/-- The answer is not written out where it is too long, and that makes no difference. -/
theorem recordRepeated_eq [Cryptography] (supply : Salt.Supply) (n : Nat) (c : CodePoint)
    (rest : List Answer) :
    recordRepeated supply n c rest = record supply (.given (.text (List.replicate n c)) :: rest) := by
  unfold recordRepeated
  split
  · rename_i hlong
    simp only [Bool.and_eq_true, Bool.not_eq_true', decide_eq_true_eq] at hlong
    have hoctets := Text.utf8?_replicate hlong.1 n
    rw [← Text.length_flatMap_replicate] at hlong
    have hsalt : (supply.salt Record.saltSize).1.length = Record.saltSize := rfl
    rw [record]
    simp only [Record.ofPlaintext_of_tooLong hsalt hoctets hlong.2]
  · rfl

end Prompt

end SaltedHash
