import TableLoader.Json.Decode
import TableLoader.Proofs.Json.Rereading
import TableLoader.Proofs.Json.Source

/-! # Records read back

What the values that records are written with are read as, and the members that a record gives back under its
declared names. -/
namespace TableLoader.Json

def printings (v : Json) : List String := [v.render, v.renderPretty]

def reread (v : Json) : Json := v.source.value

theorem parse?_of_mem_printings {v : Json} (hk : v.keyed = true) :
    ∀ text ∈ v.printings, parse? text = some v.reread := by
  rw [printings, List.forall_mem_cons, List.forall_mem_singleton, render_eq, renderPretty_eq]
  exact ⟨parse?_written .compact v hk, parse?_written .lines v hk⟩

/-- Whatever the printing, a keyed value is decoded from what it is read as. -/
theorem decoded_printings {α : Type} (decode : Json → Option α) {v : Json} (hk : v.keyed = true)
    (a : Option α) : (∀ text ∈ v.printings, (parse? text).bind decode = a) ↔ decode v.reread = a := by
  have hparse := parse?_of_mem_printings hk
  constructor
  · intro h
    have hrender := h v.render List.mem_cons_self
    rwa [hparse v.render List.mem_cons_self] at hrender
  · intro h text htext
    rw [hparse text htext, ← h]
    rfl

theorem allKeyed_eq_all (items : List Json) : allKeyed items = items.all keyed := by
  induction items with
  | nil => rfl
  | cons item items ih => rw [allKeyed, ih, List.all_cons]

@[simp] theorem keyed_bool (b : Bool) : (bool b).keyed = true := rfl

@[simp] theorem keyed_ofNat (n : ℕ) : (ofNat n).keyed = true := rfl

@[simp] theorem keyed_ofString (s : String) : (ofString s).keyed = true := rfl

@[simp] theorem keyed_array (items : List Json) : (array items).keyed = items.all keyed :=
  allKeyed_eq_all items

@[simp] theorem keyed_record (entries : List (String × Json)) :
    (record entries).keyed = entries.all fun entry => entry.2.keyed := by
  rw [record, keyed]
  induction entries with
  | nil => rfl
  | cons entry entries ih =>
    rw [List.map_cons, entriesKeyed, ih, Option.isSome_some, Bool.true_and, List.all_cons]

theorem keyed_ofStrings (ss : List String) : (ofStrings ss).keyed = true := by
  simp [ofStrings]

theorem sources_eq_map (items : List Json) : sources items = items.map source := by
  induction items with
  | nil => rfl
  | cons item items ih => rw [sources, ih, List.map_cons]

@[simp] theorem reread_bool (b : Bool) : (bool b).reread = bool b := rfl

@[simp] theorem reread_ofString (s : String) : (ofString s).reread = ofString s := rfl

@[simp] theorem reread_number (n : Number) : (number (some n)).reread = number n.reread? :=
  congrArg number n.toNumber?_literal

@[simp] theorem reread_ofNat (n : ℕ) : (ofNat n).reread = ofNat n :=
  reread_number _

@[simp] theorem reread_array (items : List Json) : (array items).reread = array (items.map reread) := by
  rw [reread, source, Source.value, sources_eq_map, Source.values_eq_map, List.map_map]
  rfl

@[simp] theorem reread_record (entries : List (String × Json)) :
    (record entries).reread = record (entries.map fun entry => (entry.1, entry.2.reread)) := by
  have hsources : entrySources (entries.map fun entry => (some entry.1, entry.2)) =
      entries.map fun entry => (some entry.1, entry.2.source) := by
    induction entries with
    | nil => rfl
    | cons entry entries ih => rw [List.map_cons, entrySources, ih, List.map_cons]
  rw [record, reread, source, Source.value, hsources, Source.entryValues_eq_map, record, List.map_map,
    List.map_map]
  rfl

theorem reread_ofStrings (ss : List String) : (ofStrings ss).reread = ofStrings ss := by
  simp [ofStrings]

theorem valuesOf_cons (name key : String) (item : Json) (entries : List (Option String × Json)) :
    valuesOf name ((some key, item) :: entries) =
      if key = name then item :: valuesOf name entries else valuesOf name entries := by
  by_cases h : key = name <;> simp [valuesOf, h]

theorem valuesOf_record (name : String) {entries : List (String × Json)}
    (h : (entries.map (·.1)).Nodup) :
    valuesOf name (entries.map fun entry => (some entry.1, entry.2)) =
      (List.lookup name entries).toList := by
  induction entries with
  | nil => rfl
  | cons entry entries ih =>
    obtain ⟨key, item⟩ := entry
    rw [List.map_cons, List.nodup_cons] at h
    rw [List.map_cons, valuesOf_cons, ih h.2]
    by_cases hname : key = name
    · subst hname
      have hnone : List.lookup key entries = none := by
        rw [List.lookup_eq_none_iff]
        intro other hother
        have hne : key ≠ other.1 := by
          rintro rfl
          exact h.1 (List.mem_map.mpr ⟨other, hother, rfl⟩)
        simpa using hne
      rw [if_pos rfl, hnone, List.lookup_cons_self]
      rfl
    · have hlookup : List.lookup name ((key, item) :: entries) = List.lookup name entries := by
        rw [List.lookup_cons, beq_false_of_ne (Ne.symm hname)]
      rw [if_neg hname, hlookup]

/-- A record gives each of its declared names the value that stands under it. -/
theorem members?_record {names : List String} {unknown : UnknownKeys} {entries : List (String × Json)}
    (hkeys : (entries.map (·.1)).Nodup) (hnames : ∀ entry ∈ entries, entry.1 ∈ names) :
    members? names unknown (record entries) =
      some (names.map fun name => List.lookup name entries) := by
  have honce : ∀ name, (valuesOf name (entries.map fun entry => (some entry.1, entry.2))).length ≤ 1 := by
    intro name
    rw [valuesOf_record name hkeys]
    cases List.lookup name entries <;> simp
  rw [record, members?, if_pos]
  · congr 1
    apply List.map_congr_left
    intro name _
    rw [valuesOf_record name hkeys]
    cases List.lookup name entries <;> rfl
  · rw [Bool.and_eq_true, List.all_map, List.all_eq_true, List.all_eq_true]
    constructor
    · intro entry hentry
      simp [hnames entry hentry]
    · intro name _
      exact decide_eq_true (honce name)

theorem map_lookup {entries : List (String × Json)} (h : (entries.map (·.1)).Nodup) :
    (entries.map (·.1)).map (fun name => List.lookup name entries) = entries.map (some ·.2) := by
  induction entries with
  | nil => rfl
  | cons entry entries ih =>
    obtain ⟨key, item⟩ := entry
    rw [List.map_cons, List.nodup_cons] at h
    rw [List.map_cons, List.map_cons, List.map_cons, List.lookup_cons_self, ← ih h.2]
    congr 1
    apply List.map_congr_left
    intro name hname
    have hne : name ≠ key := by
      rintro rfl
      exact h.1 hname
    rw [List.lookup_cons, beq_false_of_ne hne]

theorem members?_complete {names : List String} {unknown : UnknownKeys} {entries : List (String × Json)}
    (hkeys : entries.map (·.1) = names) (hnames : names.Nodup) :
    members? names unknown (record entries) = some (entries.map (some ·.2)) := by
  subst hkeys
  rw [members?_record hnames fun entry hentry => List.mem_map_of_mem hentry, map_lookup hnames]

section Lists

variable {α : Type} {decode : Json → Option α}

theorem mapM_eq_some_iff {f : α → Option α} (as : List α) :
    as.mapM f = some as ↔ ∀ a ∈ as, f a = some a := by
  induction as with
  | nil => simp
  | cons a as ih =>
    rw [List.forall_mem_cons, ← ih]
    simp only [List.mapM_cons, Option.pure_def, Option.bind_eq_bind, Option.bind_eq_some_iff,
      Option.some.injEq, List.cons.injEq]
    constructor
    · rintro ⟨_, ha, _, has, rfl, rfl⟩
      exact ⟨ha, has⟩
    · rintro ⟨ha, has⟩
      exact ⟨a, ha, as, has, rfl, rfl⟩

/-- A list comes back when each of its items does. -/
theorem asList?_map_eq_some_iff {encode : α → Json} (as : List α) :
    asList? decode (array (as.map encode)) = some as ↔ ∀ a ∈ as, decode (encode a) = some a := by
  rw [asList?, asArray?, Option.bind_some, List.mapM_map]
  exact mapM_eq_some_iff as

end Lists

end TableLoader.Json
