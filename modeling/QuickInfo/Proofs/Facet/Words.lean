import QuickInfo.Facet
import QuickInfo.Proofs.Text.Trimming

/-!
# Facet texts

The parts of a facet text stand between separators and the ends of the text. A text is read by the
union of what its parts name, so that joining two texts by a separator joins their sets, and only the
set of the parts counts. The first part that names nothing is reported.
-/
namespace QuickInfo.Facets

open Text

/-- A part of a text in its place: behind a separator or the start of the text, before a separator or
the end of the text, and without the blanks around it. -/
structure PartAt (s before part after : String) : Prop where
  cut : ∃ left right : List Char, s.toList = before.toList ++ (left ++ part.toList ++ right) ++
    after.toList ∧ (∀ c ∈ left, isBlank c = true) ∧ ∀ c ∈ right, isBlank c = true
  behind : ∀ c ∈ before.toList.getLast?, isSeparator c = true
  ahead : ∀ c ∈ after.toList.head?, isSeparator c = true
  nonempty : part ≠ ""
  undivided : ∀ c ∈ part.toList, isSeparator c = false
  first : ∀ c ∈ part.toList.head?, isBlank c = false
  last : ∀ c ∈ part.toList.getLast?, isBlank c = false

/-- The text has the part at some place. -/
def IsPart (s part : String) : Prop := ∃ before after, PartAt s before part after

/-- The part is the name of a facet or a preset, but for case, hyphens and underscores. -/
def IsKnown (part : String) : Prop :=
  ∃ entry ∈ vocabulary, normalize entry.1.toList = normalize part.toList

/-- The part is not known, and the parts before it are. -/
def FirstUnknown (s part : String) : Prop :=
  ∃ before after, PartAt s before part after ∧ ¬IsKnown part ∧
    ∀ earlier, IsPart before earlier → IsKnown earlier

theorem isSeparator_of_isBlank {c : Char} (h : isBlank c = true) : isSeparator c = false := by
  rw [Bool.eq_false_iff]
  intro hc
  simp only [isSeparator, Bool.or_eq_true, beq_iff_eq] at hc
  rcases hc with rfl | rfl
  · exact absurd h (by decide)
  · exact absurd h (by decide)

section Words

@[simp] theorem words_empty : words "" = [] := rfl

/-- A separator ends one word and begins the next. -/
theorem words_push_append (s t : String) {c : Char} (hc : isSeparator c = true) :
    words (s.push c ++ t) = words s ++ words t := by
  have hlist : (s.push c ++ t).toList = s.toList ++ c :: t.toList := by simp
  rw [words, hlist, List.splitOnP_append_cons _ _ hc, List.map_append, List.filter_append]
  rfl

theorem words_append_of_behind {s : String} (h : ∀ c ∈ s.toList.getLast?, isSeparator c = true)
    (t : String) : words (s ++ t) = words s ++ words t := by
  rcases s.toList.eq_nil_or_concat with hs | ⟨front, c, hs⟩
  · rw [String.toList_eq_nil_iff.1 hs, String.empty_append, words_empty, List.nil_append]
  · have hc : isSeparator c = true := h c (by simp [hs])
    obtain rfl : s = (String.ofList front).push c := by
      apply String.toList_inj.1
      simp [hs]
    have hfront := words_push_append (String.ofList front) "" hc
    rw [String.append_empty, words_empty, List.append_nil] at hfront
    rw [words_push_append _ _ hc, hfront]

theorem words_append_of_ahead (s : String) {t : String}
    (h : ∀ c ∈ t.toList.head?, isSeparator c = true) : words (s ++ t) = words s ++ words t := by
  cases ht : t.toList with
  | nil => rw [String.toList_eq_nil_iff.1 ht, String.append_empty, words_empty, List.append_nil]
  | cons c rest =>
    have hc : isSeparator c = true := h c (by simp [ht])
    have hsplit : ∀ u : String, u ++ t = u.push c ++ String.ofList rest := by
      intro u
      apply String.toList_inj.1
      simp [ht]
    have htail : words t = words (String.ofList rest) := by
      have hstart := words_push_append "" (String.ofList rest) hc
      rwa [← hsplit, String.empty_append, words_empty, List.nil_append] at hstart
    rw [hsplit, words_push_append _ _ hc, htail]

/-- A text without separators is one word, if it is not blank. -/
theorem words_of_undivided {s : String} (h : ∀ c ∈ s.toList, isSeparator c = false) :
    words s = if trim s.toList = [] then [] else [trim s.toList] := by
  rw [words, List.splitOnP_eq_singleton h, List.map_singleton]
  by_cases hblank : trim s.toList = []
  · simp [hblank]
  · simp [hblank]

theorem words_of_partAt {s before part after : String} (h : PartAt s before part after) :
    words s = words before ++ part.toList :: words after := by
  obtain ⟨left, right, hcut, hleft, hright⟩ := h.cut
  have hs : s = before ++ (String.ofList (left ++ part.toList ++ right) ++ after) := by
    apply String.toList_inj.1
    simp [hcut]
  have hmiddle : words (String.ofList (left ++ part.toList ++ right)) = [part.toList] := by
    have hundivided : ∀ c ∈ (String.ofList (left ++ part.toList ++ right)).toList,
        isSeparator c = false := by
      intro c hc
      rw [String.toList_ofList, List.mem_append, List.mem_append] at hc
      rcases hc with (hc | hc) | hc
      · exact isSeparator_of_isBlank (hleft c hc)
      · exact h.undivided c hc
      · exact isSeparator_of_isBlank (hright c hc)
    have htrim := trim_append_append hleft hright h.first h.last
    have hne : part.toList ≠ [] := mt String.toList_eq_nil_iff.1 h.nonempty
    rw [words_of_undivided hundivided, String.toList_ofList, htrim, if_neg hne]
  rw [hs, words_append_of_behind h.behind, words_append_of_ahead _ h.ahead, hmiddle]
  rfl

/-- A part behind a separator stays a part behind what stands before the separator. -/
theorem PartAt.push_append {s before part after : String} (h : PartAt s before part after)
    (front : String) {c : Char} (hc : isSeparator c = true) :
    PartAt (front.push c ++ s) (front.push c ++ before) part after where
  cut := by
    obtain ⟨left, right, hcut, hblank⟩ := h.cut
    refine ⟨left, right, ?_, hblank⟩
    simp [hcut]
  behind := by
    intro d hd
    rw [String.toList_append, String.toList_push, List.getLast?_append,
      List.getLast?_append] at hd
    cases hlast : before.toList.getLast? with
    | none =>
      rw [hlast] at hd
      exact Option.some.inj hd ▸ hc
    | some e =>
      rw [hlast] at hd
      exact h.behind d (hlast ▸ hd)
  ahead := h.ahead
  nonempty := h.nonempty
  undivided := h.undivided
  first := h.first
  last := h.last

/-- What stands before the first separator is a part, if it is not blank. -/
theorem partAt_of_undivided {cs : List Char} (h : ∀ c ∈ cs, isSeparator c = false)
    (hne : trim cs ≠ []) {after : String} (hafter : ∀ c ∈ after.toList.head?, isSeparator c = true) :
    PartAt (String.ofList cs ++ after) "" (String.ofList (trim cs)) after := by
  obtain ⟨left, right, hcut, hleft, hright, hfirst, hlast⟩ := exists_append_trim cs
  refine ⟨⟨left, right, ?_, hleft, hright⟩, ?_, hafter, ?_, ?_, ?_, ?_⟩
  · have hpart : (String.ofList (trim cs)).toList = trim cs := String.toList_ofList
    rw [String.toList_append, String.toList_ofList, hpart, ← hcut]
    rfl
  · intro c hc
    cases hc
  · intro hempty
    exact hne (by simpa using congrArg String.toList hempty)
  · intro c hc
    rw [String.toList_ofList] at hc
    apply h
    rw [hcut]
    exact List.mem_append_left _ (List.mem_append_right _ hc)
  · rwa [String.toList_ofList]
  · rwa [String.toList_ofList]

/-- A text up to its first separator, and the rest. -/
theorem exists_undivided (s : String) :
    ∃ (cs : List Char) (after : String), s = String.ofList cs ++ after ∧
      (∀ c ∈ cs, isSeparator c = false) ∧ ∀ c ∈ after.toList.head?, isSeparator c = true := by
  cases hfind : s.toList.find? isSeparator with
  | none =>
    refine ⟨s.toList, "", by simp, ?_, by simp⟩
    intro c hc
    exact Bool.eq_false_iff.2 (List.find?_eq_none.1 hfind c hc)
  | some c =>
    obtain ⟨hc, first, rest, hs, hfirst⟩ := List.find?_eq_some_iff_append.1 hfind
    refine ⟨first, String.ofList (c :: rest), ?_, ?_, ?_⟩
    · apply String.toList_inj.1
      simp [hs]
    · intro d hd
      simpa using hfirst d hd
    · intro d hd
      rw [String.toList_ofList] at hd
      exact Option.some.inj hd ▸ hc

/-- Every word is a part in its place. -/
theorem exists_partAt {s : String} {front back : List (List Char)} {w : List Char}
    (h : words s = front ++ w :: back) :
    ∃ before after, PartAt s before (String.ofList w) after ∧ words before = front ∧
      words after = back := by
  -- by the length of the text; what follows its first separator is shorter
  induction hn : s.toList.length using Nat.strongRecOn generalizing s front with
  | ind n ih =>
    obtain ⟨cs, after, rfl, hcs, hafter⟩ := exists_undivided s
    have hundivided : ∀ c ∈ (String.ofList cs).toList, isSeparator c = false := by
      rwa [String.toList_ofList]
    have hlater : ∀ {front'}, words after = front' ++ w :: back →
        ∃ before after', PartAt (String.ofList cs ++ after) before (String.ofList w) after' ∧
          words before = words (String.ofList cs) ++ front' ∧ words after' = back := by
      intro front' hwords
      cases hlist : after.toList with
      | nil =>
        rw [String.toList_eq_nil_iff.1 hlist, words_empty] at hwords
        exact absurd hwords.symm (List.append_ne_nil_of_right_ne_nil _ (List.cons_ne_nil _ _))
      | cons c rest =>
        have hc : isSeparator c = true := hafter c (by simp [hlist])
        have hsplit : ∀ u : String, u ++ after = u.push c ++ String.ofList rest := by
          intro u
          apply String.toList_inj.1
          simp [hlist]
        have hrest : words (String.ofList rest) = front' ++ w :: back := by
          rw [← hwords, ← String.empty_append (s := after), hsplit, words_push_append _ _ hc,
            words_empty, List.nil_append]
        have hlength : (String.ofList rest).toList.length < n := by
          simp [← hn, hlist]
          omega
        obtain ⟨before, after', hpart, hbefore, hback⟩ := ih _ hlength hrest rfl
        refine ⟨(String.ofList cs).push c ++ before, after', ?_, ?_, hback⟩
        · rw [hsplit]
          exact hpart.push_append _ hc
        · rw [words_push_append _ _ hc, hbefore]
    rw [words_append_of_ahead _ hafter, words_of_undivided hundivided,
      String.toList_ofList] at h
    rw [words_of_undivided hundivided, String.toList_ofList] at hlater
    split at h
    · next hblank =>
      rw [if_pos hblank] at hlater
      exact hlater h
    · next hne =>
      rw [if_neg hne] at hlater
      cases front with
      | nil =>
        obtain ⟨rfl, rfl⟩ := List.cons.inj h
        exact ⟨"", after, partAt_of_undivided hcs hne hafter, rfl, rfl⟩
      | cons word front =>
        obtain ⟨rfl, hwords⟩ := List.cons.inj h
        exact hlater hwords

theorem isPart_iff {s part : String} : IsPart s part ↔ part.toList ∈ words s := by
  constructor
  · rintro ⟨before, after, hpart⟩
    rw [words_of_partAt hpart]
    exact List.mem_append_right _ List.mem_cons_self
  · intro hmem
    obtain ⟨front, back, hwords⟩ := List.append_of_mem hmem
    obtain ⟨before, after, hpart, -, -⟩ := exists_partAt hwords
    rw [String.ofList_toList] at hpart
    exact ⟨before, after, hpart⟩

end Words

section Reading

variable {ws vs : List (List Char)}

theorem isKnown_iff {part : String} : IsKnown part ↔ (ofWord? part.toList).isSome := by
  rw [ofWord?, Option.isSome_map, List.find?_isSome]
  simp only [beq_iff_eq]
  rfl

theorem ofWords_cons_of_none {w : List Char} (h : ofWord? w = none) (ws : List (List Char)) :
    ofWords (w :: ws) = .error ⟨String.ofList w⟩ := by
  rw [ofWords, ofWord, h]
  rfl

theorem ofWords_cons_of_some {w : List Char} {s : Facets} (h : ofWord? w = some s)
    (ws : List (List Char)) : ofWords (w :: ws) = (ofWords ws).map (s ∪ ·) := by
  rw [ofWords, ofWord, h]
  cases ofWords ws <;> rfl

theorem ofWords_append (ws vs : List (List Char)) :
    ofWords (ws ++ vs) =
      match ofWords ws, ofWords vs with
      | .error e, _ => .error e
      | .ok _, .error e => .error e
      | .ok s, .ok t => .ok (s ∪ t) := by
  induction ws with
  | nil =>
    rw [List.nil_append, ofWords]
    cases ofWords vs with
    | error e => rfl
    | ok t => exact congrArg _ t.empty_union.symm
  | cons w ws ih =>
    rw [List.cons_append]
    cases hw : ofWord? w with
    | none => rw [ofWords_cons_of_none hw, ofWords_cons_of_none hw]
    | some s =>
      rw [ofWords_cons_of_some hw, ofWords_cons_of_some hw, ih]
      cases ofWords ws with
      | error e => rfl
      | ok t =>
        cases ofWords vs with
        | error e => rfl
        | ok u => exact congrArg _ (s.union_assoc t u).symm

/-- Known words name the facets of the set together. -/
theorem mem_of_ofWords {s : Facets} (h : ofWords ws = .ok s) (f : Facet) :
    f ∈ s ↔ ∃ w ∈ ws, ∃ t, ofWord? w = some t ∧ f ∈ t := by
  induction ws generalizing s with
  | nil =>
    obtain rfl : (∅ : Facets) = s := Except.ok.inj h
    simp [FlagSet.mem_def]
  | cons w ws ih =>
    cases hw : ofWord? w with
    | none =>
      rw [ofWords_cons_of_none hw] at h
      cases h
    | some t =>
      rw [ofWords_cons_of_some hw] at h
      cases hws : ofWords ws with
      | error e =>
        rw [hws] at h
        cases h
      | ok u =>
        rw [hws] at h
        obtain rfl : t ∪ u = s := Except.ok.inj h
        rw [FlagSet.mem_union_iff, ih hws]
        simp only [List.mem_cons, exists_eq_or_imp, hw, Option.some.injEq, exists_eq_left']

/-- The first word that names nothing is reported. -/
theorem ofWords_eq_error_iff {e : UnknownFacet} :
    ofWords ws = .error e ↔ ∃ front w back, ws = front ++ w :: back ∧ ofWord? w = none ∧
      (∀ v ∈ front, (ofWord? v).isSome) ∧ e = ⟨String.ofList w⟩ := by
  constructor
  · intro h
    induction ws with
    | nil => cases h
    | cons w ws ih =>
      cases hw : ofWord? w with
      | none =>
        rw [ofWords_cons_of_none hw] at h
        exact ⟨[], w, ws, rfl, hw, by simp, (Except.error.inj h).symm⟩
      | some s =>
        rw [ofWords_cons_of_some hw] at h
        cases hws : ofWords ws with
        | ok t =>
          rw [hws] at h
          cases h
        | error d =>
          rw [hws] at h
          obtain ⟨front, v, back, rfl, hv, hfront, rfl⟩ := ih (hws.trans h)
          refine ⟨w :: front, v, back, rfl, hv, ?_, rfl⟩
          rintro u (_ | ⟨_, hu⟩)
          · rw [hw]
            rfl
          · exact hfront u hu
  · rintro ⟨front, w, back, rfl, hw, hfront, rfl⟩
    induction front with
    | nil => exact ofWords_cons_of_none hw back
    | cons v front ih =>
      obtain ⟨s, hv⟩ := Option.isSome_iff_exists.1 (hfront v List.mem_cons_self)
      rw [List.cons_append, ofWords_cons_of_some hv,
        ih fun u hu => hfront u (List.mem_cons_of_mem v hu)]
      rfl

theorem exists_ofWords_eq_error_iff :
    (∃ e, ofWords ws = .error e) ↔ ∃ w ∈ ws, ofWord? w = none := by
  constructor
  · rintro ⟨e, h⟩
    obtain ⟨front, w, back, rfl, hw, -⟩ := ofWords_eq_error_iff.1 h
    exact ⟨w, List.mem_append_right _ List.mem_cons_self, hw⟩
  · rintro ⟨w, hmem, hw⟩
    obtain ⟨front, back, rfl⟩ := List.append_of_mem hmem
    rw [ofWords_append, ofWords_cons_of_none hw]
    cases ofWords front with
    | error e => exact ⟨e, rfl⟩
    | ok s => exact ⟨_, rfl⟩

/-- Two texts joined by a separator are read one after the other. -/
theorem ofText_push_append (s t : String) {c : Char} (hc : isSeparator c = true) :
    ofText (s.push c ++ t) =
      match ofText s, ofText t with
      | .error e, _ => .error e
      | .ok _, .error e => .error e
      | .ok f, .ok g => .ok (f ∪ g) := by
  rw [ofText, words_push_append s t hc, ofWords_append]
  rfl

/-- What is reported is the first unknown part. -/
theorem ofText_eq_error_iff {s : String} {e : UnknownFacet} :
    ofText s = .error e ↔ FirstUnknown s e.part := by
  rw [ofText, ofWords_eq_error_iff]
  constructor
  · rintro ⟨front, w, back, hwords, hw, hfront, rfl⟩
    obtain ⟨before, after, hpart, rfl, -⟩ := exists_partAt hwords
    refine ⟨before, after, hpart, ?_, ?_⟩
    · rw [isKnown_iff, String.toList_ofList, hw]
      exact Bool.false_ne_true
    · intro earlier hearlier
      exact isKnown_iff.2 (hfront _ (isPart_iff.1 hearlier))
  · rintro ⟨before, after, hpart, hunknown, hbefore⟩
    refine ⟨words before, e.part.toList, words after, words_of_partAt hpart, ?_, ?_, ?_⟩
    · rwa [isKnown_iff, Bool.not_eq_true, Option.isSome_eq_false_iff, Option.isNone_iff_eq_none]
        at hunknown
    · intro w hw
      have hearlier : IsPart before (String.ofList w) := by rwa [isPart_iff, String.toList_ofList]
      have hknown := isKnown_iff.1 (hbefore _ hearlier)
      rwa [String.toList_ofList] at hknown
    · rw [String.ofList_toList]

/-- Only the set of the words counts. -/
theorem ofWords_congr (h : ∀ w, w ∈ ws ↔ w ∈ vs) :
    (∃ s, ofWords ws = .ok s ∧ ofWords vs = .ok s) ∨
      ∃ d e, ofWords ws = .error d ∧ ofWords vs = .error e := by
  cases hws : ofWords ws with
  | error d =>
    obtain ⟨w, hmem, hw⟩ := exists_ofWords_eq_error_iff.1 ⟨d, hws⟩
    obtain ⟨e, hvs⟩ := exists_ofWords_eq_error_iff.2 ⟨w, (h w).1 hmem, hw⟩
    exact .inr ⟨d, e, rfl, hvs⟩
  | ok s =>
    cases hvs : ofWords vs with
    | error e =>
      obtain ⟨w, hmem, hw⟩ := exists_ofWords_eq_error_iff.1 ⟨e, hvs⟩
      obtain ⟨d, hd⟩ := exists_ofWords_eq_error_iff.2 ⟨w, (h w).2 hmem, hw⟩
      rw [hd] at hws
      cases hws
    | ok t =>
      obtain rfl : s = t := by
        ext f
        rw [Bool.eq_iff_iff, ← FlagSet.mem_def, ← FlagSet.mem_def, mem_of_ofWords hws,
          mem_of_ofWords hvs]
        simp only [h]
      exact .inl ⟨s, rfl, rfl⟩

end Reading

section Writing

/-- A blank before a text belongs to no word. -/
theorem words_space_append (s : String) : words (" " ++ s) = words s := by
  have hlist : (" " ++ s).toList = ' ' :: s.toList := by simp
  obtain ⟨first, rest, hsplit⟩ :=
    List.exists_cons_of_ne_nil (List.splitOnP_ne_nil isSeparator s.toList)
  rw [words, words, hlist, List.splitOnP_cons_eq_if_modifyHead, if_neg (by decide), hsplit]
  rfl

theorem name_plain (f : Facet) :
    ∀ c ∈ f.name.toList, isSeparator c = false ∧ isBlank c = false := by
  have hall : f.name.toList.all (fun c => !isSeparator c && !isBlank c) = true := by
    cases f <;> decide
  intro c hc
  simpa using List.all_eq_true.1 hall c hc

/-- The name of a facet is one word, whatever blanks follow it. -/
theorem words_name_append (f : Facet) (blanks : String)
    (h : ∀ c ∈ blanks.toList, isBlank c = true) :
    words (f.name ++ blanks) = [f.name.toList] := by
  have hundivided : ∀ c ∈ (f.name ++ blanks).toList, isSeparator c = false := by
    intro c hc
    rw [String.toList_append, List.mem_append] at hc
    rcases hc with hc | hc
    · exact (name_plain f c hc).1
    · exact isSeparator_of_isBlank (h c hc)
  have hnone : ∀ c ∈ ([] : List Char), isBlank c = true := by simp
  have htrim : trim (f.name ++ blanks).toList = f.name.toList := by
    have hword := trim_append_append hnone h
      (fun c hc => (name_plain f c (List.mem_of_mem_head? hc)).2)
      fun c hc => (name_plain f c (List.mem_of_getLast? hc)).2
    rwa [List.nil_append, ← String.toList_append] at hword
  have hne : f.name.toList ≠ [] := by cases f <;> decide
  rw [words_of_undivided hundivided, htrim, if_neg hne]

/-- No other entry of the vocabulary is taken for the name of a facet. -/
theorem ofWord?_name (f : Facet) : ofWord? f.name.toList = some (FlagSet.ofList [f]) := by
  cases f <;> rfl

theorem ofText_name_append (f : Facet) (blanks : String)
    (h : ∀ c ∈ blanks.toList, isBlank c = true) :
    ofText (f.name ++ blanks) = .ok (FlagSet.ofList [f]) := by
  rw [ofText, words_name_append f blanks h, ofWords_cons_of_some (ofWord?_name f)]
  exact congrArg _ (FlagSet.union_empty _)

theorem ofText_names {fs : List Facet} (h : fs ≠ []) :
    ofText (" | ".intercalate (fs.map Facet.name)) = .ok (FlagSet.ofList fs) := by
  induction fs with
  | nil => exact absurd rfl h
  | cons f fs ih =>
    cases fs with
    | nil =>
      have hname := ofText_name_append f "" (by simp)
      rwa [String.append_empty] at hname
    | cons g fs =>
      have hbar : " | ".intercalate ((f :: g :: fs).map Facet.name) =
          (f.name ++ " ").push '|' ++ (" " ++ " | ".intercalate ((g :: fs).map Facet.name)) := by
        apply String.toList_inj.1
        simp [String.intercalate_cons_cons]
      have hrest : ofText (" " ++ " | ".intercalate ((g :: fs).map Facet.name)) =
          .ok (FlagSet.ofList (g :: fs)) := by
        rw [ofText, words_space_append]
        exact ih (List.cons_ne_nil g fs)
      have hspace : " ".toList.all isBlank = true := by decide
      rw [hbar, ofText_push_append _ _ rfl,
        ofText_name_append f " " (List.all_eq_true.1 hspace), hrest]
      exact congrArg _ (FlagSet.ofList_cons f (g :: fs)).symm

/-- Every set of facets is read back from its text. -/
theorem ofText_text (s : Facets) : ofText s.text = .ok s := by
  rw [text]
  split
  · next hnil =>
    rw [FlagSet.toList_eq_nil_iff.1 hnil]
    rfl
  · next hne =>
    rw [ofText_names hne, FlagSet.ofList_toList]

end Writing

/-- The text of two texts and a separator between them stands for the union of their sets, or has the
error of the first one that is refused. Texts with the same parts stand for the same set or are both
refused; the error is the first unknown part; and every set is read back from its text. -/
theorem facet_texts_unite :
    (∀ (a b : String) (c : Char), c = '|' ∨ c = ',' →
      ofText (a.push c ++ b) =
        match ofText a, ofText b with
        | .error e, _ => .error e
        | .ok _, .error e => .error e
        | .ok s, .ok t => .ok (s ∪ t)) ∧
      (∀ a b, (∀ part, IsPart a part ↔ IsPart b part) →
        (∃ s, ofText a = .ok s ∧ ofText b = .ok s) ∨
          ∃ d e, ofText a = .error d ∧ ofText b = .error e) ∧
      (∀ a e, ofText a = .error e ↔ FirstUnknown a e.part) ∧
      ∀ s : Facets, ofText s.text = .ok s := by
  refine ⟨?_, ?_, fun a e => ofText_eq_error_iff, ofText_text⟩
  · intro a b c hc
    apply ofText_push_append
    rcases hc with rfl | rfl <;> rfl
  · intro a b h
    apply ofWords_congr
    intro w
    have hparts := h (String.ofList w)
    rwa [isPart_iff, isPart_iff, String.toList_ofList] at hparts

/-- The parts of the one text come in another order in the other, one of them twice. -/
theorem facet_texts_unite_shuffled :
    (',' = '|' ∨ ',' = ',') ∧
      (∀ part, IsPart "none,show-accessibility |, none" part ↔
        IsPart "show-accessibility | none" part) ∧
      ofText ("none,show-accessibility |, none".push ',' ++ " SHOW_MODIFIERS|") =
        .ok (FlagSet.ofList [.accessibility, .modifiers]) ∧
      ofText "none,show-accessibility |, none" = ofText "show-accessibility | none" := by
  have hparts : ∀ part, IsPart "none,show-accessibility |, none" part ↔
      IsPart "show-accessibility | none" part := by
    intro part
    have hwords : words "none,show-accessibility |, none" =
        ["none".toList, "show-accessibility".toList, "none".toList] := rfl
    have hwords' : words "show-accessibility | none" =
        ["show-accessibility".toList, "none".toList] := rfl
    rw [isPart_iff, isPart_iff, hwords, hwords']
    simp only [List.mem_cons, List.not_mem_nil, or_false]
    exact ⟨fun h => h.elim .inr id, .inr⟩
  obtain ⟨hunion, hset, -⟩ := facet_texts_unite
  have hfirst : ofText "show-accessibility | none" =
      .ok (FlagSet.ofList [.accessibility] ∪ (∅ ∪ ∅)) := rfl
  have hsecond : ofText " SHOW_MODIFIERS|" = .ok (FlagSet.ofList [.modifiers] ∪ ∅) := rfl
  have hsame : ofText "none,show-accessibility |, none" = ofText "show-accessibility | none" := by
    rcases hset _ _ hparts with ⟨s, hs, ht⟩ | ⟨d, e, -, he⟩
    · rw [hs, ht]
    · rw [hfirst] at he
      cases he
  have hjoined : FlagSet.ofList [Facet.accessibility] ∪ (∅ ∪ ∅) ∪ (FlagSet.ofList [.modifiers] ∪ ∅) =
      FlagSet.ofList [.accessibility, .modifiers] := by
    decide
  refine ⟨.inr rfl, hparts, ?_, hsame⟩
  rw [hunion _ _ ',' (.inr rfl), hsame, hfirst, hsecond]
  exact congrArg Except.ok hjoined

end QuickInfo.Facets
