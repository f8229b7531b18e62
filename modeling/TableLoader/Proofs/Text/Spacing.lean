import TableLoader.Proofs.Text.LetterCase
import TableLoader.Proofs.Text.Lines
import TableLoader.Proofs.Text.Occurrence

/-! # Words and the blanks between them

A text is a single word unless a blank stands between two characters that are none. Where each run of blanks
becomes one space the words stay as they are, and two words stand one space apart just where they stood apart by
a run. -/
namespace TableLoader.Text

theorem words_eq_nil_iff {cs : List Char} : words cs = [] ↔ ∀ c ∈ cs, isBlank c = true := by
  constructor
  · intro h c hc
    by_contra hb
    exact words_ne_nil hc (by simpa using hb) h
  · intro h
    by_contra hne
    obtain ⟨w, hw⟩ := List.exists_mem_of_ne_nil _ hne
    obtain ⟨hwne, hplain⟩ := mem_of_mem_words hw
    obtain ⟨c, hc⟩ := List.exists_mem_of_ne_nil w hwne
    obtain ⟨hmem, hb⟩ := hplain c hc
    exact absurd ((h c hmem).symm.trans hb) (by decide)

theorem words_cons_blank {b : Char} (hb : isBlank b = true) (cs : List Char) : words (b :: cs) = words cs := by
  have h := words_append_cons hb [] cs
  have hnil : words [] = [] := words_eq_nil_iff.mpr (by simp)
  rwa [hnil, List.nil_append, List.nil_append] at h

theorem words_append_of_blanks {pre : List Char} (h : ∀ c ∈ pre, isBlank c = true) (cs : List Char) :
    words (pre ++ cs) = words cs := by
  induction pre with
  | nil => rfl
  | cons b pre ih =>
    obtain ⟨hb, hpre⟩ := List.forall_mem_cons.mp h
    rw [List.cons_append, words_cons_blank hb, ih hpre]

/-- No blank stands between two characters that are none. -/
def SingleWord (cs : List Char) : Prop :=
  ∀ a b c, cs = a ++ b :: c → isBlank b = true →
    (∀ x ∈ a, isBlank x = true) ∨ ∀ x ∈ c, isBlank x = true

theorem exists_firstWord {cs : List Char} (h : words cs ≠ []) :
    ∃ pre w rest, cs = pre ++ (w ++ rest) ∧ (∀ c ∈ pre, isBlank c = true) ∧ w ≠ [] ∧
      (∀ c ∈ w, isBlank c = false) ∧ ∀ c ∈ rest.head?, isBlank c = true := by
  obtain ⟨pre, hpre, hs⟩ := exists_append_trimStart cs
  refine ⟨pre, (trimStart cs).takeWhile (!isBlank ·), (trimStart cs).dropWhile (!isBlank ·), ?_, hpre, ?_,
    ?_, ?_⟩
  · rw [List.takeWhile_append_dropWhile, hs]
  · intro hw
    cases hcs : trimStart cs with
    | nil =>
      rw [hcs, List.append_nil] at hs
      exact h (words_eq_nil_iff.mpr (hs ▸ hpre))
    | cons c inner =>
      have hc : isBlank c = false := by
        have hd := List.head?_dropWhile_not isBlank cs
        rw [← trimStart, hcs] at hd
        simpa using hd
      simp [hcs, hc] at hw
  · intro c hc
    simpa using List.mem_takeWhile_imp hc
  · intro c hc
    have hd := List.head?_dropWhile_not (!isBlank ·) (trimStart cs)
    rw [Option.mem_def.mp hc] at hd
    simpa using hd

theorem length_words_lt_two_iff {cs : List Char} : (words cs).length < 2 ↔ SingleWord cs := by
  constructor
  · rintro h a b c rfl hb
    rw [words_append_cons hb, List.length_append] at h
    rw [← words_eq_nil_iff, ← words_eq_nil_iff, ← List.length_eq_zero_iff, ← List.length_eq_zero_iff]
    omega
  · intro h
    by_cases hne : words cs = []
    · simp [hne]
    · obtain ⟨pre, w, rest, rfl, hpre, hw, hplain, hrest⟩ := exists_firstWord hne
      rw [words_append_of_blanks hpre]
      cases rest with
      | nil => simp [words_word hw hplain]
      | cons b rest =>
        have hb : isBlank b = true := hrest b rfl
        have hblank : ∀ x ∈ rest, isBlank x = true := by
          refine (h (pre ++ w) b rest (by simp) hb).resolve_left ?_
          intro hall
          obtain ⟨c, hc⟩ := List.exists_mem_of_ne_nil w hw
          exact absurd ((hall c (List.mem_append_right _ hc)).symm.trans (hplain c hc)) (by decide)
        rw [words_append_blank hw hplain hb, words_eq_nil_iff.mpr hblank, List.length_singleton]
        exact Nat.one_lt_two

theorem exists_words_of_not_singleWord {cs : List Char} (h : ¬ SingleWord cs) :
    ∃ first second others, words cs = first :: second :: others := by
  rw [← length_words_lt_two_iff, not_lt] at h
  obtain ⟨first, more, hfirst⟩ := List.exists_cons_of_length_pos (Nat.lt_of_lt_of_le Nat.two_pos h)
  rw [hfirst, List.length_cons, Nat.succ_le_succ_iff] at h
  obtain ⟨second, others, hsecond⟩ := List.exists_cons_of_length_pos h
  exact ⟨first, second, others, by rw [hfirst, hsecond]⟩

theorem blanks_or_exists_last (cs : List Char) : (∀ c ∈ cs, isBlank c = true) ∨
    ∃ init c post, cs = init ++ c :: post ∧ isBlank c = false ∧ ∀ b ∈ post, isBlank b = true := by
  induction cs using List.reverseRecOn with
  | nil => exact Or.inl (by simp)
  | append_singleton cs c ih =>
    cases hc : isBlank c with
    | false => exact Or.inr ⟨cs, c, [], rfl, hc, by simp⟩
    | true =>
      rcases ih with h | ⟨init, d, post, rfl, hd, hpost⟩
      · exact Or.inl (List.forall_mem_append.mpr ⟨h, List.forall_mem_singleton.mpr hc⟩)
      · refine Or.inr ⟨init, d, post ++ [c], by simp, hd, ?_⟩
        exact List.forall_mem_append.mpr ⟨hpost, List.forall_mem_singleton.mpr hc⟩

theorem trimEnd_of_blanks {cs : List Char} (h : ∀ c ∈ cs, isBlank c = true) : trimEnd cs = [] := by
  simpa [trimEnd] using h

/-- Blanks of some kind, the space among them. -/
structure BlankClass where
  has : Char → Bool
  blank : ∀ c, has c = true → isBlank c = true
  space : has ' ' = true

namespace BlankClass

variable (k : BlankClass)

/-- The text with one space in place of each run of blanks. -/
def squeeze : List Char → List Char
  | [] => []
  | c :: cs =>
    if k.has c = false then c :: squeeze cs
    else if cs.head?.any k.has then squeeze cs
    else ' ' :: squeeze cs

def IsGap (gap : List Char) : Prop := gap ≠ [] ∧ ∀ c ∈ gap, k.has c = true

variable {k}

theorem isGap_space : k.IsGap [' '] := ⟨List.cons_ne_nil _ _, List.forall_mem_singleton.mpr k.space⟩

theorem has_eq_false {c : Char} (h : isBlank c = false) : k.has c = false := by
  rw [← Bool.not_eq_true]
  intro hk
  exact Bool.false_ne_true (h.symm.trans (k.blank c hk))

theorem has_eq_false_of_isUpper {c : Char} (h : c.isUpper = true) : k.has c = false := by
  apply has_eq_false
  rw [← Bool.not_eq_true]
  intro hb
  exact Bool.false_ne_true ((isUpper_of_isBlank hb).symm.trans h)

theorem squeeze_cons {c : Char} (h : k.has c = false) (cs : List Char) :
    k.squeeze (c :: cs) = c :: k.squeeze cs := if_pos h

theorem squeeze_append_of_forall {w : List Char} (h : ∀ c ∈ w, k.has c = false) (cs : List Char) :
    k.squeeze (w ++ cs) = w ++ k.squeeze cs := by
  induction w with
  | nil => rfl
  | cons c w ih =>
    obtain ⟨hc, hw⟩ := List.forall_mem_cons.mp h
    rw [List.cons_append, squeeze_cons hc, ih hw, List.cons_append]

theorem squeeze_of_head {c : Char} (h : k.has c = true) {cs : List Char}
    (hh : cs.head?.any k.has = true) : k.squeeze (c :: cs) = k.squeeze cs := by
  simp [squeeze, h, hh]

theorem squeeze_of_not_head {c : Char} (h : k.has c = true) {cs : List Char}
    (hh : cs.head?.any k.has = false) : k.squeeze (c :: cs) = ' ' :: k.squeeze cs := by
  simp [squeeze, h, hh]

/-- A blank gives a space or, within a run, nothing. -/
theorem squeeze_cons_cases {c : Char} (h : k.has c = true) (cs : List Char) :
    (k.squeeze (c :: cs) = k.squeeze cs ∧ cs.head?.any k.has = true) ∨
      (k.squeeze (c :: cs) = ' ' :: k.squeeze cs ∧ cs.head?.any k.has = false) := by
  cases hh : cs.head?.any k.has with
  | true => exact Or.inl ⟨squeeze_of_head h hh, rfl⟩
  | false => exact Or.inr ⟨squeeze_of_not_head h hh, rfl⟩

theorem mem_of_mem_squeeze {c : Char} {cs : List Char} (h : c ∈ k.squeeze cs) : c = ' ' ∨ c ∈ cs := by
  induction cs with
  | nil => simp [squeeze] at h
  | cons d cs ih =>
    cases hd : k.has d with
    | false =>
      rw [squeeze_cons hd] at h
      rcases List.mem_cons.mp h with rfl | h
      · exact Or.inr List.mem_cons_self
      · exact (ih h).imp_right (List.mem_cons_of_mem d)
    | true =>
      rcases squeeze_cons_cases hd cs with ⟨hs, -⟩ | ⟨hs, -⟩ <;> rw [hs] at h
      · exact (ih h).imp_right (List.mem_cons_of_mem d)
      · rcases List.mem_cons.mp h with rfl | h
        · exact Or.inl rfl
        · exact (ih h).imp_right (List.mem_cons_of_mem d)

theorem exists_squeeze_cons {c : Char} (h : k.has c = true) (cs : List Char) :
    ∃ more, k.squeeze (c :: cs) = ' ' :: more := by
  induction cs generalizing c with
  | nil => exact ⟨[], by simp [squeeze, h]⟩
  | cons d cs ih =>
    rcases squeeze_cons_cases h (d :: cs) with ⟨hs, hd⟩ | ⟨hs, -⟩
    · rw [hs]
      exact ih (by simpa using hd)
    · exact ⟨_, hs⟩

theorem exists_squeeze_concat {c : Char} (h : k.has c = true) (cs : List Char) :
    ∃ more, k.squeeze (cs ++ [c]) = more ++ [' '] := by
  induction cs with
  | nil => exact ⟨[], by simp [squeeze, h]⟩
  | cons d cs ih =>
    obtain ⟨more, hm⟩ := ih
    rw [List.cons_append]
    cases hd : k.has d with
    | false => exact ⟨d :: more, by rw [squeeze_cons hd, hm, List.cons_append]⟩
    | true =>
      rcases squeeze_cons_cases hd (cs ++ [c]) with ⟨hs, -⟩ | ⟨hs, -⟩
      · exact ⟨more, by rw [hs, hm]⟩
      · exact ⟨' ' :: more, by rw [hs, hm, List.cons_append]⟩

/-- What stands before and behind a character that is no blank is squeezed apart. -/
theorem squeeze_append_cons {c : Char} (h : k.has c = false) (a b : List Char) :
    k.squeeze (a ++ c :: b) = k.squeeze a ++ c :: k.squeeze b := by
  induction a with
  | nil => exact squeeze_cons h b
  | cons d a ih =>
    cases hd : k.has d with
    | false => rw [List.cons_append, squeeze_cons hd, squeeze_cons hd, ih, List.cons_append]
    | true =>
      have hhead : (a ++ c :: b).head?.any k.has = a.head?.any k.has := by
        cases a with
        | nil => simp [h]
        | cons e a => rfl
      rw [List.cons_append]
      rcases squeeze_cons_cases hd a with ⟨hs, ha⟩ | ⟨hs, ha⟩ <;>
        rcases squeeze_cons_cases hd (a ++ c :: b) with ⟨ht, hb⟩ | ⟨ht, hb⟩ <;>
        simp_all

theorem words_append_squeeze (w cs : List Char) : words (w ++ k.squeeze cs) = words (w ++ cs) := by
  induction cs generalizing w with
  | nil => rfl
  | cons c cs ih =>
    cases hc : k.has c with
    | false =>
      have hcut := ih (w ++ [c])
      rw [List.append_assoc, List.append_assoc] at hcut
      rw [squeeze_cons hc]
      exact hcut
    | true =>
      have hb : isBlank c = true := k.blank c hc
      have hspace : isBlank ' ' = true := by decide
      rcases squeeze_cons_cases hc cs with ⟨hs, hhead⟩ | ⟨hs, -⟩
      · obtain ⟨d, hd, hk⟩ := (Option.any_eq_true _ _).mp hhead
        obtain ⟨more, rfl⟩ := List.head?_eq_some_iff.mp hd
        rw [hs, ih, words_append_cons hb, words_append_cons (k.blank d hk), words_cons_blank (k.blank d hk)]
      · rw [hs, words_append_cons hspace, words_append_cons hb, ← List.nil_append (k.squeeze cs), ih,
          List.nil_append]

theorem words_squeeze (cs : List Char) : words (k.squeeze cs) = words cs := words_append_squeeze [] cs

theorem trimStart_squeeze (cs : List Char) : trimStart (k.squeeze cs) = k.squeeze (trimStart cs) := by
  induction cs with
  | nil => rfl
  | cons c cs ih =>
    cases hb : isBlank c with
    | false =>
      have hc : k.has c = false := has_eq_false hb
      rw [squeeze_cons hc, trimStart, trimStart, List.dropWhile_cons_of_neg (by simp [hb]),
        List.dropWhile_cons_of_neg (by simp [hb]), squeeze_cons hc]
    | true =>
      have hdrop : trimStart (c :: cs) = trimStart cs := List.dropWhile_cons_of_pos hb
      rw [hdrop, ← ih]
      cases hc : k.has c with
      | false =>
        rw [squeeze_cons hc]
        exact List.dropWhile_cons_of_pos hb
      | true =>
        rcases squeeze_cons_cases hc cs with ⟨hs, -⟩ | ⟨hs, -⟩
        · rw [hs]
        · rw [hs]
          exact List.dropWhile_cons_of_pos rfl

theorem isBlank_of_mem_squeeze {cs : List Char} (h : ∀ c ∈ cs, isBlank c = true) :
    ∀ c ∈ k.squeeze cs, isBlank c = true := by
  intro c hc
  rcases mem_of_mem_squeeze hc with rfl | hc
  · rfl
  · exact h c hc

theorem trimEnd_squeeze (cs : List Char) : trimEnd (k.squeeze cs) = k.squeeze (trimEnd cs) := by
  rcases blanks_or_exists_last cs with h | ⟨init, c, post, rfl, hc, hpost⟩
  · rw [trimEnd_of_blanks h, trimEnd_of_blanks (isBlank_of_mem_squeeze h)]
    rfl
  · have hk : k.has c = false := has_eq_false hc
    have hcut : ∀ tail, (∀ b ∈ tail, isBlank b = true) → ∀ front,
        trimEnd (front ++ c :: tail) = front ++ [c] := by
      intro tail htail front
      have hsplit : front ++ c :: tail = (front ++ [c]) ++ tail := by simp
      rw [hsplit, trimEnd_append List.getLast?_concat hc, trimEnd_of_blanks htail, List.append_nil]
    rw [squeeze_append_cons hk, hcut post hpost, hcut _ (isBlank_of_mem_squeeze hpost),
      squeeze_append_cons hk]
    rfl

theorem trim_squeeze (cs : List Char) : trim (k.squeeze cs) = k.squeeze (trim cs) := by
  rw [trim, trimStart_squeeze, trimEnd_squeeze, ← trim]

theorem toUpper_squeeze (cs : List Char) : toUpper (k.squeeze cs) = k.squeeze (toUpper cs) := by
  have hupper : ∀ c, k.has c = false → ∀ x ∈ upper c, k.has x = false := by
    intro c hc x hx
    rw [← Bool.not_eq_true]
    intro hk
    rw [eq_of_isBlank_of_mem_upper (k.blank x hk) hx, hk] at hc
    exact absurd hc (by decide)
  induction cs with
  | nil => rfl
  | cons c cs ih =>
    cases hc : k.has c with
    | false => rw [squeeze_cons hc, toUpper_cons, toUpper_cons, squeeze_append_of_forall (hupper c hc), ih]
    | true =>
      have hhead : (toUpper cs).head?.any k.has = cs.head?.any k.has := by
        cases cs with
        | nil => rfl
        | cons d cs =>
          obtain ⟨x, more, hx⟩ := List.exists_cons_of_ne_nil (upper_ne_nil d)
          rw [toUpper_cons, hx]
          cases hd : k.has d with
          | false => simp [hd, hupper d hd x (hx ▸ List.mem_cons_self)]
          | true =>
            rw [upper_of_isBlank (k.blank d hd)] at hx
            obtain ⟨rfl, -⟩ := List.cons.inj hx
            simp
      rw [toUpper_cons, upper_of_isBlank (k.blank c hc), List.singleton_append]
      rcases squeeze_cons_cases hc cs with ⟨hs, ha⟩ | ⟨hs, ha⟩
      · rw [hs, ih, squeeze_of_head hc (hhead.trans ha)]
      · rw [hs, toUpper_cons, ih, squeeze_of_not_head hc (hhead.trans ha)]
        rfl

section Words

variable {u v cs : List Char}

theorem prefix_squeeze_iff (hv : ∀ c ∈ v, k.has c = false) : v <+: k.squeeze cs ↔ v <+: cs := by
  induction v generalizing cs with
  | nil => exact iff_of_true List.nil_prefix List.nil_prefix
  | cons c v ih =>
    obtain ⟨hc, hv⟩ := List.forall_mem_cons.mp hv
    cases cs with
    | nil => rfl
    | cons d cs =>
      cases hd : k.has d with
      | false => rw [squeeze_cons hd, List.cons_prefix_cons, List.cons_prefix_cons, ih hv]
      | true =>
        obtain ⟨more, hs⟩ := exists_squeeze_cons hd cs
        rw [hs, List.cons_prefix_cons, List.cons_prefix_cons]
        refine iff_of_false ?_ ?_
        · rintro ⟨rfl, -⟩
          exact absurd (hc.symm.trans k.space) (by decide)
        · rintro ⟨rfl, -⟩
          exact absurd (hc.symm.trans hd) (by decide)

theorem not_gap_prefix_nil : ¬ ∃ gap, k.IsGap gap ∧ gap ++ v <+: [] := by
  rintro ⟨gap, ⟨hne, -⟩, h⟩
  exact hne (List.append_eq_nil_iff.mp (List.prefix_nil.mp h)).1

theorem gap_prefix_cons_iff {c : Char} : (∃ gap, k.IsGap gap ∧ gap ++ v <+: c :: cs) ↔
    k.has c = true ∧ (v <+: cs ∨ ∃ gap, k.IsGap gap ∧ gap ++ v <+: cs) := by
  constructor
  · rintro ⟨gap, ⟨hne, hall⟩, h⟩
    obtain ⟨b, more, rfl⟩ := List.exists_cons_of_ne_nil hne
    obtain ⟨rfl, hrest⟩ := List.cons_prefix_cons.mp h
    obtain ⟨hb, hmore⟩ := List.forall_mem_cons.mp hall
    cases more with
    | nil => exact ⟨hb, Or.inl hrest⟩
    | cons d more => exact ⟨hb, Or.inr ⟨d :: more, ⟨List.cons_ne_nil _ _, hmore⟩, hrest⟩⟩
  · rintro ⟨hc, h | ⟨gap, ⟨-, hall⟩, h⟩⟩
    · exact ⟨[c], ⟨List.cons_ne_nil _ _, List.forall_mem_singleton.mpr hc⟩,
        List.cons_prefix_cons.mpr ⟨rfl, h⟩⟩
    · exact ⟨c :: gap, ⟨List.cons_ne_nil _ _, List.forall_mem_cons.mpr ⟨hc, hall⟩⟩,
        List.cons_prefix_cons.mpr ⟨rfl, h⟩⟩

/-- A space stands before a word where a gap did. -/
theorem space_prefix_squeeze_iff (hv : ∀ c ∈ v, k.has c = false) :
    ' ' :: v <+: k.squeeze cs ↔ ∃ gap, k.IsGap gap ∧ gap ++ v <+: cs := by
  induction cs with
  | nil => exact iff_of_false (fun h => List.cons_ne_nil _ _ (List.prefix_nil.mp h)) not_gap_prefix_nil
  | cons c cs ih =>
    rw [gap_prefix_cons_iff]
    cases hc : k.has c with
    | false =>
      rw [squeeze_cons hc]
      refine iff_of_false ?_ (fun h => Bool.false_ne_true h.1)
      intro h
      rw [← (List.cons_prefix_cons.mp h).1, k.space] at hc
      exact absurd hc (by decide)
    | true =>
      rw [and_iff_right rfl]
      rcases squeeze_cons_cases hc cs with ⟨hs, hhead⟩ | ⟨hs, hhead⟩
      · obtain ⟨d, hd, hk⟩ := (Option.any_eq_true _ _).mp hhead
        obtain ⟨after, rfl⟩ := List.head?_eq_some_iff.mp hd
        rw [hs, ih]
        refine (or_iff_right_of_imp fun h => ?_).symm
        -- Only the empty word follows the first of several blanks at once.
        cases v with
        | nil => exact gap_prefix_cons_iff.mpr ⟨hk, Or.inl List.nil_prefix⟩
        | cons x v =>
          obtain ⟨rfl, -⟩ := List.cons_prefix_cons.mp h
          exact absurd ((hv x List.mem_cons_self).symm.trans hk) (by decide)
      · rw [hs, List.cons_prefix_cons, and_iff_right rfl, prefix_squeeze_iff hv]
        refine (or_iff_left_of_imp fun h => ?_).symm
        cases cs with
        | nil => exact absurd h not_gap_prefix_nil
        | cons d cs => simp [(gap_prefix_cons_iff.mp h).1] at hhead

/-- Two words begin the text one space apart just where they began it a gap apart. -/
theorem spaced_prefix_squeeze_iff (hu : ∀ c ∈ u, k.has c = false) (hv : ∀ c ∈ v, k.has c = false) :
    u ++ ' ' :: v <+: k.squeeze cs ↔ ∃ gap, k.IsGap gap ∧ u ++ (gap ++ v) <+: cs := by
  induction u generalizing cs with
  | nil => exact space_prefix_squeeze_iff hv
  | cons c u ih =>
    obtain ⟨hc, hu⟩ := List.forall_mem_cons.mp hu
    cases cs with
    | nil => simp [squeeze]
    | cons d cs =>
      cases hd : k.has d with
      | false => simp only [squeeze_cons hd, List.cons_append, List.cons_prefix_cons, ih hu,
          and_left_comm, exists_and_left]
      | true =>
        obtain ⟨more, hs⟩ := exists_squeeze_cons hd cs
        rw [hs]
        refine iff_of_false ?_ ?_
        · intro h
          rw [(List.cons_prefix_cons.mp h).1, k.space] at hc
          exact absurd hc (by decide)
        · rintro ⟨gap, -, h⟩
          rw [(List.cons_prefix_cons.mp h).1, hd] at hc
          exact absurd hc (by decide)

theorem infix_squeeze_cons_iff {word : List Char} (c : Char) : word <:+: k.squeeze (c :: cs) ↔
    word <+: k.squeeze (c :: cs) ∨ word <:+: k.squeeze cs := by
  cases hc : k.has c with
  | false => rw [squeeze_cons hc, List.infix_cons_iff]
  | true =>
    rcases squeeze_cons_cases hc cs with ⟨hs, -⟩ | ⟨hs, -⟩
    · rw [hs]
      exact (or_iff_right_of_imp List.IsPrefix.isInfix).symm
    · rw [hs, List.infix_cons_iff]

theorem spaced_infix_squeeze_iff (hu : ∀ c ∈ u, k.has c = false) (hv : ∀ c ∈ v, k.has c = false) :
    u ++ ' ' :: v <:+: k.squeeze cs ↔ ∃ gap, k.IsGap gap ∧ u ++ (gap ++ v) <:+: cs := by
  induction cs with
  | nil =>
    refine iff_of_false (by simp [squeeze]) ?_
    rintro ⟨gap, ⟨hne, -⟩, h⟩
    simp_all
  | cons c cs ih =>
    rw [infix_squeeze_cons_iff, spaced_prefix_squeeze_iff hu hv, ih, ← exists_or]
    simp only [← and_or_left, List.infix_cons_iff]

end Words

end BlankClass

end TableLoader.Text
