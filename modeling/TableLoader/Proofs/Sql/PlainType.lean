import TableLoader.Proofs.Sql.Lexing
import TableLoader.Proofs.Sql.Reading
import TableLoader.Proofs.Text.LetterCase

/-! # Plain types

The types of ordinary columns, with the tokens of their texts and what MySQL's grammar makes of these. The
letters of a type's name may be of any case. -/
namespace TableLoader.Sql

def bareTypes : List String := ["INT", "TEXT", "DATE", "DATETIME", "TIMESTAMP"]

def sizedIntegers : List String := ["INT", "BIGINT", "TINYINT", "SMALLINT"]

def sizedTexts : List String := ["VARCHAR", "CHAR"]

def typeNames : List String := "DECIMAL" :: (bareTypes ++ (sizedIntegers ++ sizedTexts))

/-- A type as ordinary columns declare it, with its measure in the range that the grammar reads. -/
inductive PlainType where
  | bare (name : String) (h : name ∈ bareTypes)
  | sized (name : String) (n : ℕ) (h : name ∈ sizedIntegers ++ sizedTexts) (hn : n < twoTo 64)
  | decimal (precision scale : ℕ) (hp : precision < twoTo 64) (hs : scale < twoTo 63)

namespace PlainType

def name : PlainType → String
  | bare name _ => name
  | sized name .. => name
  | decimal .. => "DECIMAL"

def measure : PlainType → Measure
  | bare .. => .absent
  | sized _ n .. => .length n
  | decimal p s .. => .scaled p s

def dataType (t : PlainType) : DataType := .known t.name t.measure []

def measureText : PlainType → List Char
  | bare .. => []
  | sized _ n .. => '(' :: (natText n ++ [')'])
  | decimal p s .. => '(' :: (natText p ++ ',' :: (natText s ++ [')']))

def measureTokens : PlainType → List Token
  | bare .. => []
  | sized _ n .. => [.symbol "(", numberToken n, .symbol ")"]
  | decimal p s .. => [.symbol "(", numberToken p, .symbol ",", numberToken s, .symbol ")"]

theorem render_dataType (t : PlainType) :
    t.dataType.render = String.ofList (t.name.toList ++ t.measureText) := by
  apply String.toList_inj.mp
  cases t <;>
    simp [dataType, DataType.render, name, measure, Measure.render, measureText]

theorem name_mem (t : PlainType) : t.name ∈ typeNames := by
  cases t with
  | bare name h => simp [PlainType.name, typeNames, h]
  | sized name n h => simp [PlainType.name, typeNames, List.mem_append.mp h]
  | decimal => simp [PlainType.name, typeNames]

theorem isUpper_name (t : PlainType) : ∀ c ∈ t.name.toList, c.isUpper = true := by
  have h : typeNames.all (fun name => name.toList.all Char.isUpper) = true := by decide +kernel
  intro c hc
  exact List.all_eq_true.mp (List.all_eq_true.mp h t.name t.name_mem) c hc

theorem length_name (t : PlainType) : 1 < t.name.toList.length := by
  have h : ∀ name ∈ typeNames, 1 < name.toList.length := by decide +kernel
  exact h t.name t.name_mem

def followers : List Token := [.symbol ",", .symbol ")", .word "NOT" "NOT" none]

theorem knownType_integer {name : String} (h : name ∈ sizedIntegers) (inner : Reader DataType) :
    knownType .mysql inner name = (do
      let measure ← lengthMeasure
      return some (.known name measure (← signSuffix .mysql))) := by
  simp only [sizedIntegers, List.mem_cons, List.not_mem_nil, or_false] at h
  rcases h with rfl | rfl | rfl | rfl <;> rfl

/-- The other words that may begin a text type come before the parenthesis. -/
theorem knownType_text {name : String} (h : name ∈ sizedTexts) (inner : Reader DataType)
    (ts : List Token) :
    knownType .mysql inner name (.symbol "(" :: ts) =
      (do return some (.known name (← characterMeasure) []) : Reader (Option DataType))
        (.symbol "(" :: ts) := by
  simp only [sizedTexts, List.mem_cons, List.not_mem_nil, or_false] at h
  rcases h with rfl | rfl <;> rfl

theorem knownType_plain (t : PlainType) {follower : Token} (hf : follower ∈ followers)
    (inner : Reader DataType) (rest : List Token) :
    knownType .mysql inner t.name (t.measureTokens ++ follower :: rest) =
      .read (some t.dataType) (follower :: rest) := by
  simp only [followers, List.mem_cons, List.not_mem_nil, or_false] at hf
  cases t with
  | bare name h =>
    simp only [bareTypes, List.mem_cons, List.not_mem_nil, or_false] at h
    rcases h with rfl | rfl | rfl | rfl | rfl <;> rcases hf with rfl | rfl | rfl <;> rfl
  | sized name n h hn =>
    show knownType .mysql inner name
      (.symbol "(" :: numberToken n :: .symbol ")" :: follower :: rest) = _
    rcases List.mem_append.mp h with h | h
    · have hm := lengthMeasure_number hn (follower :: rest)
      rw [knownType_integer h, bind_of_read hm]
      rcases hf with rfl | rfl | rfl <;> rfl
    · have hm := characterMeasure_number hn (follower :: rest)
      rw [knownType_text h, bind_of_read hm]
      rfl
  | decimal p s hp hs =>
    have hm := scaledMeasure_numbers hp hs (follower :: rest)
    have hk : knownType .mysql inner "DECIMAL" = (do
        let measure ← scaledMeasure
        return some (.known "DECIMAL" measure (← unsignedSuffix))) := rfl
    show knownType .mysql inner "DECIMAL" (.symbol "(" :: numberToken p :: .symbol "," ::
      numberToken s :: .symbol ")" :: follower :: rest) = _
    rw [hk, bind_of_read hm]
    rcases hf with rfl | rfl | rfl <;> rfl

theorem dataType_plain (t : PlainType) (word : String) {follower : Token}
    (hf : follower ∈ followers) (rest : List Token) :
    Sql.dataType .mysql (.word word t.name none :: (t.measureTokens ++ follower :: rest)) =
      .read t.dataType (follower :: rest) :=
  dataType_of_knownType (fun inner => t.knownType_plain hf inner rest) word

/-- The text of a type, whose name may be written in any case, falls into its tokens. -/
theorem yields (t : PlainType) {w rest : List Char} {ts : List Token}
    (hw : Text.equalsIgnoringCase w t.name.toList = true)
    (hr : ∀ c ∈ rest.head?, Dialect.isWordPart .mysql c = false) (h : Yields .mysql rest ts) :
    Yields .mysql (w ++ (t.measureText ++ rest))
      (.word (String.ofList w) t.name none :: (t.measureTokens ++ ts)) := by
  obtain ⟨hu, ha⟩ := Text.toUpper_of_equalsIgnoringCase t.isUpper_name hw
  have hl : 1 < w.length := by
    have he := congrArg List.length (eq_of_beq hw)
    have ht := t.length_name
    simp only [List.length_map] at he
    omega
  have hb : Token.bareWord w = .word (String.ofList w) t.name none := by
    rw [Token.bareWord, hu, String.ofList_toList]
  have hgroup : ∀ (n : ℕ) {stop : Char} {more : List Char} {us : List Token},
      stop = ',' ∨ stop = ')' → Yields .mysql (stop :: more) us →
        Yields .mysql (natText n ++ stop :: more) (numberToken n :: us) :=
    fun n _ _ _ hs hm => Yields.digits (natText_ne_nil n) (natText_digits n) hs hm
  have hopen : ∀ cs, ∀ c ∈ ('(' :: cs).head?, Dialect.isWordPart .mysql c = false :=
    word_ends (by simp)
  have hclose : Yields .mysql (')' :: rest) (.symbol ")" :: ts) := Yields.mark (by simp) h
  rw [← hb]
  cases t with
  | bare => exact Yields.word ha hl hr h
  | sized name n =>
    have hm := Yields.mark (c := '(') (by simp) (hgroup n (Or.inr rfl) hclose)
    simpa [measureText, measureTokens] using Yields.word ha hl (hopen _) hm
  | decimal p s =>
    have hs := Yields.mark (c := ',') (by simp) (hgroup s (Or.inr rfl) hclose)
    have hm := Yields.mark (c := '(') (by simp) (hgroup p (Or.inl rfl) hs)
    simpa [measureText, measureTokens] using Yields.word ha hl (hopen _) hm

end PlainType

end TableLoader.Sql
