import Mathlib.Tactic.IntervalCases
import Phrasebook.Text.Numeral

/-!
# Reading back numerals

The digits of a number are read as that number, in bases up to sixteen and below the bound of the
reader.
-/

namespace Phrasebook.Text

theorem digitValue?_digitChar {base d : Nat} (hd : d < base) (hbase : base ≤ 16) :
    digitValue? base (Nat.digitChar d) = some d := by
  have hd16 : d < 16 := Nat.lt_of_lt_of_le hd hbase
  interval_cases d <;> simp [digitValue?, Nat.digitChar, hd]

theorem mem_toDigits {base n : Nat} (hbase : 1 < base) {c : Char} (hc : c ∈ Nat.toDigits base n) :
    ∃ d < base, c = Nat.digitChar d := by
  induction n using Nat.base_induction base hbase with
  | single m hm =>
    rw [Nat.toDigits_of_lt_base hm] at hc
    exact ⟨m, hm, List.mem_singleton.1 hc⟩
  | digit m k hk hm ih =>
    rw [← Nat.toDigits_append_toDigits hbase hm hk, Nat.toDigits_of_lt_base hk] at hc
    rcases List.mem_append.1 hc with hc | hc
    · exact ih hc
    · exact ⟨k, hk, List.mem_singleton.1 hc⟩

theorem readDigits_append (base bound acc : Nat) (as bs : List Char) :
    readDigits base bound acc (as ++ bs) =
      readDigits base bound acc as >>= fun value => readDigits base bound value bs := by
  induction as generalizing acc with
  | nil => rfl
  | cons c cs ih =>
    rw [List.cons_append, readDigits, readDigits]
    cases digitValue? base c with
    | none => rfl
    | some d =>
      by_cases h : acc * base + d < bound
      · simp only [if_pos h, ih]
      · simp only [if_neg h]
        rfl

theorem readDigits_digitChar {base bound acc d : Nat} (hd : d < base) (hbase : base ≤ 16)
    (h : acc * base + d < bound) :
    readDigits base bound acc [Nat.digitChar d] = .ok (acc * base + d) := by
  simp only [readDigits, digitValue?_digitChar hd hbase, if_pos h]

theorem readDigits_toDigits {base bound n : Nat} (hbase : 1 < base) (hsmall : base ≤ 16)
    (hn : n < bound) : readDigits base bound 0 (Nat.toDigits base n) = .ok n := by
  induction n using Nat.base_induction base hbase with
  | single m hm =>
    rw [Nat.toDigits_of_lt_base hm, readDigits_digitChar hm hsmall (by omega), Nat.zero_mul,
      Nat.zero_add]
  | digit m k hk hm ih =>
    have hle : m ≤ base * m := Nat.le_mul_of_pos_left m (by omega)
    rw [← Nat.toDigits_append_toDigits hbase hm hk, Nat.toDigits_of_lt_base hk, readDigits_append,
      ih (by omega)]
    show readDigits base bound m [Nat.digitChar k] = _
    rw [Nat.mul_comm] at hn
    rw [readDigits_digitChar hk hsmall hn, Nat.mul_comm]

theorem unsigned?_toDigits {base bound n : Nat} (hbase : 1 < base) (hsmall : base ≤ 16)
    (hn : n < bound) : unsigned? base bound (Nat.toDigits base n) = some n := by
  unfold unsigned?
  split
  · rename_i rest hplus
    obtain ⟨d, hd, hchar⟩ :=
      mem_toDigits hbase (hplus ▸ List.mem_cons_self : '+' ∈ Nat.toDigits base n)
    have hd16 : d < 16 := Nat.lt_of_lt_of_le hd hsmall
    interval_cases d <;> cases hchar
  · rw [readUnsigned, if_neg (by simp), readDigits_toDigits hbase hsmall hn]
    rfl

/-! ## What a numeral is made of -/

theorem isDigit_of_mem_decimal {n : Nat} {c : Char} (h : c ∈ decimal n) : c.isDigit = true := by
  obtain ⟨d, hd, rfl⟩ := mem_toDigits (by decide) h
  interval_cases d <;> rfl

theorem minus_or_isDigit_of_mem_integer {n : Int} {c : Char} (h : c ∈ integer n) :
    c = '-' ∨ c.isDigit = true := by
  cases n with
  | ofNat n => exact .inr (isDigit_of_mem_decimal h)
  | negSucc n =>
    rw [integer, List.mem_cons] at h
    exact h.imp_right isDigit_of_mem_decimal

theorem isAlphanum_of_digitValue? {base d : Nat} {c : Char} (h : digitValue? base c = some d) :
    c.isAlphanum = true := by
  simp only [digitValue?] at h
  have hrange : ('0' ≤ c ∧ c ≤ '9') ∨ ('a' ≤ c ∧ c ≤ 'z') ∨ ('A' ≤ c ∧ c ≤ 'Z') := by
    by_contra hnone
    simp only [not_or] at hnone
    obtain ⟨hdigit, hlower, hupper⟩ := hnone
    rw [if_neg hdigit, if_neg hlower, if_neg hupper, if_neg (Nat.lt_irrefl base)] at h
    cases h
  have hbetween {low high : Char} (hlow : low ≤ c) (hhigh : c ≤ high) :
      (decide (low ≤ c) && decide (c ≤ high)) = true :=
    Bool.and_eq_true_iff.2 ⟨decide_eq_true hlow, decide_eq_true hhigh⟩
  obtain ⟨hlow, hhigh⟩ | ⟨hlow, hhigh⟩ | ⟨hlow, hhigh⟩ := hrange
  · have hdigit : c.isDigit = true := hbetween hlow hhigh
    exact Bool.or_eq_true_iff.2 (.inr hdigit)
  · have hlower : c.isLower = true := hbetween hlow hhigh
    exact Bool.or_eq_true_iff.2 (.inl (Bool.or_eq_true_iff.2 (.inr hlower)))
  · have hupper : c.isUpper = true := decide_eq_true ⟨hlow, hhigh⟩
    exact Bool.or_eq_true_iff.2 (.inl (Bool.or_eq_true_iff.2 (.inl hupper)))

theorem isAlphanum_of_readDigits {base bound acc n : Nat} {cs : List Char}
    (h : readDigits base bound acc cs = .ok n) : ∀ c ∈ cs, c.isAlphanum = true := by
  induction cs generalizing acc with
  | nil => intro c hc; cases hc
  | cons c cs ih =>
    rw [readDigits] at h
    split at h
    · cases h
    · rename_i hdigit
      split at h
      · exact List.forall_mem_cons.2 ⟨isAlphanum_of_digitValue? hdigit, ih h⟩
      · cases h

theorem isAlphanum_of_readUnsigned {base bound n : Nat} {cs : List Char}
    (h : readUnsigned base bound cs = .ok n) : ∀ c ∈ cs, c.isAlphanum = true := by
  rw [readUnsigned] at h
  split at h
  · cases h
  · exact isAlphanum_of_readDigits h

theorem plus_or_isAlphanum_of_unsigned? {base bound n : Nat} {cs : List Char}
    (h : unsigned? base bound cs = some n) : ∀ c ∈ cs, c = '+' ∨ c.isAlphanum = true := by
  have hread {cs : List Char} (h : (readUnsigned base bound cs).toOption = some n) :
      ∀ c ∈ cs, c.isAlphanum = true := by
    cases hcs : readUnsigned base bound cs with
    | error fault => rw [hcs] at h; cases h
    | ok value => exact isAlphanum_of_readUnsigned hcs
  unfold unsigned? at h
  split at h
  · exact List.forall_mem_cons.2 ⟨.inl rfl, fun c hc => .inr (hread h c hc)⟩
  · exact fun c hc => .inr (hread h c hc)

theorem word?_decimal (word : UInt32) : word? (decimal word.toNat) = some word := by
  have hword : word.toNat < wordBound := word.toNat_lt
  unfold word? decimal
  rw [unsigned?_toDigits (by decide) (by decide) hword, Option.map_some, UInt32.ofNat_toNat]

end Phrasebook.Text
