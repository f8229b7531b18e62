import TableLoader.Calendar
import TableLoader.Proofs.Json.Literals

/-! # Texts of a fixed shape

Numbers that are filled up with zeros to a fixed width, and the texts that fit a shape: such numbers one after
another, with the marks of the shape between them. -/
namespace TableLoader

/-- A number in digits, filled up with zeros to a width. -/
def fixedWidth (width n : ℕ) : List Char := (natText n).leftpad width '0'

section FixedWidth

variable {width n : ℕ}

theorem length_fixedWidth (hw : 0 < width) (h : n < 10 ^ width) :
    (fixedWidth width n).length = width := by
  have hle : (natText n).length ≤ width := (Nat.length_toDigits_le_iff (by decide) hw).mpr h
  rw [fixedWidth, List.length_leftpad, max_eq_left hle]

theorem isDigit_fixedWidth (width n : ℕ) : ∀ c ∈ fixedWidth width n, c.isDigit = true := by
  intro c hc
  rw [fixedWidth, List.leftpad, List.mem_append] at hc
  rcases hc with hc | hc
  · exact isDigit_replicate_zero _ c hc
  · exact natText_digits n c hc

theorem natOfDigits_fixedWidth (width n : ℕ) : natOfDigits (fixedWidth width n) = n := by
  rw [fixedWidth, List.leftpad, natOfDigits_replicate_append, natOfDigits_natText]

theorem digitValue_bounds {c : Char} (h : c.isDigit = true) : 48 ≤ c.toNat ∧ c.toNat ≤ 57 := by
  simpa [Char.isDigit, UInt32.le_iff_toNat_le] using h

theorem natOfDigits_lt {ds : List Char} (hd : ∀ c ∈ ds, c.isDigit = true) :
    natOfDigits ds < 10 ^ ds.length := by
  induction ds with
  | nil => decide
  | cons c ds ih =>
    obtain ⟨hc, hd⟩ := List.forall_mem_cons.mp hd
    have hrest := ih hd
    have hzero : '0'.toNat = 48 := rfl
    have hdigit : c.toNat - '0'.toNat ≤ 9 := by
      have := digitValue_bounds hc
      omega
    have hmul := Nat.mul_le_mul_right (10 ^ ds.length) hdigit
    rw [natOfDigits_cons, List.length_cons, pow_succ]
    omega

theorem eq_of_natOfDigits_eq {a b : List Char} (ha : ∀ c ∈ a, c.isDigit = true)
    (hb : ∀ c ∈ b, c.isDigit = true) (hl : a.length = b.length) (h : natOfDigits a = natOfDigits b) :
    a = b := by
  induction a generalizing b with
  | nil => exact (List.eq_nil_of_length_eq_zero hl.symm).symm
  | cons c a ih =>
    obtain ⟨d, b, rfl⟩ := List.exists_cons_of_length_eq_add_one hl.symm
    obtain ⟨hc, ha⟩ := List.forall_mem_cons.mp ha
    obtain ⟨hd, hb⟩ := List.forall_mem_cons.mp hb
    have hl : a.length = b.length := Nat.succ.inj hl
    have hlow : natOfDigits a < 10 ^ b.length := hl ▸ natOfDigits_lt ha
    have hlow' : natOfDigits b < 10 ^ b.length := natOfDigits_lt hb
    have hpos : 0 < 10 ^ b.length := by positivity
    rw [natOfDigits_cons, natOfDigits_cons, hl, Nat.add_comm, Nat.mul_comm] at h
    obtain ⟨hquot, hrem⟩ := (Nat.div_mod_unique hpos).mpr ⟨h, hlow⟩
    have hsplit : natOfDigits b + 10 ^ b.length * (d.toNat - '0'.toNat) =
        (d.toNat - '0'.toNat) * 10 ^ b.length + natOfDigits b := by
      rw [Nat.add_comm, Nat.mul_comm]
    obtain ⟨hquot', hrem'⟩ := (Nat.div_mod_unique hpos).mpr ⟨hsplit, hlow'⟩
    have hzero : '0'.toNat = 48 := rfl
    have hcd : c.toNat = d.toNat := by
      have hlowc := digitValue_bounds hc
      have hlowd := digitValue_bounds hd
      omega
    rw [Char.toNat_inj.mp hcd, ih ha hb hl (hrem.symm.trans hrem')]

theorem eq_fixedWidth {ds : List Char} (hne : ds ≠ []) (hd : ∀ c ∈ ds, c.isDigit = true) :
    ds = fixedWidth ds.length (natOfDigits ds) := by
  apply eq_of_natOfDigits_eq hd (isDigit_fixedWidth _ _)
  · rw [length_fixedWidth (List.length_pos_of_ne_nil hne) (natOfDigits_lt hd)]
  · rw [natOfDigits_fixedWidth]

end FixedWidth

namespace Calendar

theorem fits_nil {cs : List Char} : fits [] cs = true ↔ cs = [] := by
  cases cs <;> simp [fits]

theorem fits_mark {mark : Char} {shape cs : List Char} (h : mark ≠ '9') :
    fits (mark :: shape) cs = true ↔ ∃ rest, cs = mark :: rest ∧ fits shape rest = true := by
  cases cs with
  | nil => simp [fits]
  | cons c cs =>
    simp only [fits, if_neg h, Bool.and_eq_true, beq_iff_eq]
    constructor
    · rintro ⟨rfl, hrest⟩
      exact ⟨cs, rfl, hrest⟩
    · rintro ⟨rest, heq, hrest⟩
      obtain ⟨rfl, rfl⟩ := List.cons.inj heq
      exact ⟨rfl, hrest⟩

theorem fits_replicate {width : ℕ} {shape cs : List Char} :
    fits (List.replicate width '9' ++ shape) cs = true ↔
      ∃ ds rest, cs = ds ++ rest ∧ ds.length = width ∧ (∀ c ∈ ds, c.isDigit = true) ∧
        fits shape rest = true := by
  induction width generalizing cs with
  | zero => simp
  | succ width ih =>
    rw [List.replicate_succ, List.cons_append]
    cases cs with
    | nil =>
      refine iff_of_false (by simp [fits]) ?_
      rintro ⟨ds, rest, heq, hl, -⟩
      rw [(List.append_eq_nil_iff.mp heq.symm).1] at hl
      exact absurd hl (by simp)
    | cons c cs =>
      simp only [fits, if_true, Bool.and_eq_true, ih]
      constructor
      · rintro ⟨hc, ds, rest, rfl, rfl, hd, hrest⟩
        exact ⟨c :: ds, rest, rfl, rfl, List.forall_mem_cons.mpr ⟨hc, hd⟩, hrest⟩
      · rintro ⟨ds, rest, heq, hl, hd, hrest⟩
        obtain ⟨d, ds, rfl⟩ := List.exists_cons_of_length_eq_add_one hl
        obtain ⟨rfl, rfl⟩ := List.cons.inj heq
        obtain ⟨hc, hd⟩ := List.forall_mem_cons.mp hd
        exact ⟨hc, ds, rest, rfl, Nat.succ.inj hl, hd, hrest⟩

theorem fits_number {width : ℕ} {shape cs : List Char} (hw : 0 < width) :
    fits (List.replicate width '9' ++ shape) cs = true ↔
      ∃ n < 10 ^ width, ∃ rest, cs = fixedWidth width n ++ rest ∧ fits shape rest = true := by
  rw [fits_replicate]
  constructor
  · rintro ⟨ds, rest, rfl, rfl, hd, hrest⟩
    refine ⟨natOfDigits ds, natOfDigits_lt hd, rest, ?_, hrest⟩
    rw [← eq_fixedWidth (List.ne_nil_of_length_pos hw) hd]
  · rintro ⟨n, hn, rest, rfl, hrest⟩
    exact ⟨_, rest, rfl, length_fixedWidth hw hn, isDigit_fixedWidth _ _, hrest⟩

theorem numberAt_after {front : List Char} {start : ℕ} (h : front.length = start) (k width : ℕ)
    (rest : List Char) : numberAt (start + k) width (front ++ rest) = numberAt k width rest := by
  rw [numberAt, ← List.drop_drop, List.drop_left' h]
  rfl

theorem numberAt_cons (start width : ℕ) (c : Char) (rest : List Char) :
    numberAt (start + 1) width (c :: rest) = numberAt start width rest := rfl

theorem numberAt_fixedWidth {width n : ℕ} (hw : 0 < width) (h : n < 10 ^ width) (rest : List Char) :
    numberAt 0 width (fixedWidth width n ++ rest) = n := by
  rw [numberAt, List.drop_zero, List.take_left' (length_fixedWidth hw h), natOfDigits_fixedWidth]

def joined (mark : Char) (a b c : List Char) : List Char := a ++ mark :: (b ++ mark :: c)

section Joined

variable {u v w : ℕ} (hu : 0 < u) (hv : 0 < v) (hw : 0 < w)

include hu hv hw

/-- The shape of three numbers is fitted by three numbers, with anything behind them that fits the rest. -/
theorem fits_joined (mark : Char) (hm : mark ≠ '9') (tail cs : List Char) :
    fits (joined mark (.replicate u '9') (.replicate v '9') (.replicate w '9') ++ tail) cs = true ↔
      ∃ a < 10 ^ u, ∃ b < 10 ^ v, ∃ c < 10 ^ w, ∃ rest,
        cs = joined mark (fixedWidth u a) (fixedWidth v b) (fixedWidth w c) ++ rest ∧
          fits tail rest = true := by
  simp only [joined, List.append_assoc, List.cons_append, fits_number hu, fits_number hv,
    fits_number hw, fits_mark hm]
  constructor
  · rintro ⟨a, ha, _, rfl, _, rfl, b, hb, _, rfl, _, rfl, c, hc, rest, rfl, h⟩
    exact ⟨a, ha, b, hb, c, hc, rest, rfl, h⟩
  · rintro ⟨a, ha, b, hb, c, hc, rest, rfl, h⟩
    exact ⟨a, ha, _, rfl, _, rfl, b, hb, _, rfl, _, rfl, c, hc, rest, rfl, h⟩

variable {a b c : ℕ} (ha : a < 10 ^ u) (hb : b < 10 ^ v) (hc : c < 10 ^ w)

include ha hb hc

theorem length_joined (mark : Char) :
    (joined mark (fixedWidth u a) (fixedWidth v b) (fixedWidth w c)).length = u + (v + (w + 1) + 1) := by
  simp only [joined, List.length_append, List.length_cons, length_fixedWidth hu ha,
    length_fixedWidth hv hb, length_fixedWidth hw hc]

theorem numberAt_joined (mark : Char) (rest : List Char) :
    numberAt 0 u (joined mark (fixedWidth u a) (fixedWidth v b) (fixedWidth w c) ++ rest) = a ∧
    numberAt (u + 1) v (joined mark (fixedWidth u a) (fixedWidth v b) (fixedWidth w c) ++ rest) = b ∧
    numberAt (u + (v + 1 + 1)) w
      (joined mark (fixedWidth u a) (fixedWidth v b) (fixedWidth w c) ++ rest) = c := by
  simp only [joined, List.append_assoc, List.cons_append]
  refine ⟨numberAt_fixedWidth hu ha _, ?_, ?_⟩
  · rw [numberAt_after (length_fixedWidth hu ha), numberAt_cons, numberAt_fixedWidth hv hb]
  · rw [numberAt_after (length_fixedWidth hu ha), numberAt_cons,
      numberAt_after (length_fixedWidth hv hb), numberAt_cons, numberAt_fixedWidth hw hc]

end Joined

/-- What a text of that shape says of its numbers, where it reads them. -/
theorem fits_joined_numbers {u v w : ℕ} (hu : 0 < u) (hv : 0 < v) (hw : 0 < w) (mark : Char)
    (hm : mark ≠ '9') (tail cs : List Char) {P : ℕ → ℕ → ℕ → Prop} :
    fits (joined mark (.replicate u '9') (.replicate v '9') (.replicate w '9') ++ tail) cs = true ∧
        P (numberAt 0 u cs) (numberAt (u + 1) v cs) (numberAt (u + (v + 1 + 1)) w cs) ↔
      ∃ a < 10 ^ u, ∃ b < 10 ^ v, ∃ c < 10 ^ w, ∃ rest,
        cs = joined mark (fixedWidth u a) (fixedWidth v b) (fixedWidth w c) ++ rest ∧
          fits tail rest = true ∧ P a b c := by
  rw [fits_joined hu hv hw mark hm]
  constructor
  · rintro ⟨⟨a, ha, b, hb, c, hc, rest, rfl, hrest⟩, h⟩
    obtain ⟨hna, hnb, hnc⟩ := numberAt_joined hu hv hw ha hb hc mark rest
    rw [hna, hnb, hnc] at h
    exact ⟨a, ha, b, hb, c, hc, rest, rfl, hrest, h⟩
  · rintro ⟨a, ha, b, hb, c, hc, rest, rfl, hrest, h⟩
    obtain ⟨hna, hnb, hnc⟩ := numberAt_joined hu hv hw ha hb hc mark rest
    rw [hna, hnb, hnc]
    exact ⟨⟨a, ha, b, hb, c, hc, rest, rfl, hrest⟩, h⟩

end Calendar

end TableLoader
