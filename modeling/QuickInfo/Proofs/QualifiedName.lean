import Mathlib.Data.List.DropRight
import QuickInfo.Project.Add

/-!
# Written names

A written name gives its namespace and path back if the names in the path are names that types may
have: the last dot ends the namespace, and every plus sign after it ends a name. Conversely, the
namespace and path that are read from a text give the text back, up to a dot at its start.
-/
namespace QuickInfo

/-- The name of a type is neither empty nor qualified. -/
theorem typeNameFault?_eq_none_iff {name : String} :
    typeNameFault? name = none ↔ name ≠ "" ∧ '.' ∉ name.toList ∧ '+' ∉ name.toList := by
  by_cases he : name = ""
  · simp [typeNameFault?, he]
  · by_cases hq : '.' ∈ name.toList ∨ '+' ∈ name.toList
    · have hn : ¬('.' ∉ name.toList ∧ '+' ∉ name.toList) := fun h => hq.elim h.1 h.2
      simp [typeNameFault?, he, hq, hn]
    · have hn : '.' ∉ name.toList ∧ '+' ∉ name.toList := not_or.1 hq
      simp [typeNameFault?, he, hn]

/-- Parts without the separator are read back from their text. -/
theorem Text.segments_intercalate {c : Char} {separator : String} (hc : separator.toList = [c])
    {parts : List String} (h : ∀ s ∈ parts, c ∉ s.toList) (hne : parts ≠ []) :
    Text.segments c (separator.intercalate parts) = parts := by
  have hsplit : (([c] : List Char).intercalate (parts.map String.toList)).splitOn c =
      parts.map String.toList :=
    List.splitOn_intercalate c (by simpa using h) (by simpa using hne)
  rw [Text.segments, String.toList_intercalate, hc, hsplit, List.map_map]
  simp [Function.comp_def]

/-- The parts of a text are put together again. -/
theorem Text.intercalate_segments {c : Char} {separator : String} (hc : separator.toList = [c])
    (s : String) : separator.intercalate (Text.segments c s) = s := by
  have hparts : (Text.segments c s).map String.toList = s.toList.splitOn c := by
    rw [Text.segments, List.map_map]
    simp [Function.comp_def]
  apply String.toList_inj.1
  rw [String.toList_intercalate, hc, hparts, List.intercalate_splitOn]

namespace QualifiedName

theorem splitLast?_eq_none {c : Char} {cs : List Char} (h : c ∉ cs) : splitLast? c cs = none := by
  induction cs with
  | nil => rfl
  | cons d cs ih =>
    obtain ⟨hd, hcs⟩ : c ≠ d ∧ c ∉ cs := by simpa using h
    simp [splitLast?, ih hcs, Ne.symm hd]

theorem splitLast?_append {c : Char} (before : List Char) {after : List Char} (h : c ∉ after) :
    splitLast? c (before ++ c :: after) = some (before, after) := by
  induction before with
  | nil => simp [splitLast?, splitLast?_eq_none h]
  | cons d cs ih => simp [splitLast?, ih]

/-- Where the namespace ends in a text whose last part has no dot. -/
theorem splitLast?_qualify (ns : String) {name : String} (h : '.' ∉ name.toList) :
    splitLast? '.' (qualify ns name).toList =
      if ns = "" then none else some (ns.toList, name.toList) := by
  unfold qualify
  split
  · exact splitLast?_eq_none h
  · have ht : (ns ++ "." ++ name).toList = ns.toList ++ '.' :: name.toList := by simp
    rw [ht, splitLast?_append _ h]

theorem qualify_inj {ns ns' name name' : String} (h : '.' ∉ name.toList) (h' : '.' ∉ name'.toList)
    (heq : qualify ns name = qualify ns' name') : ns = ns' ∧ name = name' := by
  have hs := congrArg (fun s => splitLast? '.' s.toList) heq
  simp only [splitLast?_qualify ns h, splitLast?_qualify ns' h'] at hs
  by_cases hn : ns = ""
  · by_cases hn' : ns' = ""
    · subst hn hn'
      exact ⟨rfl, by simpa [qualify] using heq⟩
    · simp [hn, hn'] at hs
  · by_cases hn' : ns' = ""
    · simp [hn, hn'] at hs
    · simpa [hn, hn', String.toList_inj] using hs

theorem qualify_append (ns s t : String) : qualify ns (s ++ t) = qualify ns s ++ t := by
  unfold qualify
  split
  · rfl
  · rw [String.append_assoc, String.append_assoc, String.append_assoc]

/-- A plus sign and the name of a nested type follow the written name of the enclosing type. -/
theorem text_append (ns : String) {path : List String} (h : path ≠ []) (name : String) :
    text ⟨ns, path ++ [name]⟩ = text ⟨ns, path⟩ ++ "+" ++ name := by
  unfold text
  rw [String.intercalate_append_of_ne_nil h (by simp), String.intercalate_singleton,
    qualify_append, qualify_append]

theorem not_mem_intercalate {c : Char} {path : List String} (hc : c ≠ '+')
    (h : ∀ name ∈ path, c ∉ name.toList) : c ∉ ("+".intercalate path).toList := by
  induction path with
  | nil => simp
  | cons name path ih =>
    have hn : c ∉ name.toList := h name (by simp)
    have hp := ih fun other ho => h other (by simp [ho])
    cases path with
    | nil => simpa using hn
    | cons other path =>
      rw [String.intercalate_cons_cons]
      simp only [String.toList_append, List.mem_append, not_or]
      exact ⟨⟨hn, by simpa using hc⟩, hp⟩

theorem intercalate_inj {path path' : List String} (h : ∀ name ∈ path, '+' ∉ name.toList)
    (h' : ∀ name ∈ path', '+' ∉ name.toList) (hne : path ≠ []) (hne' : path' ≠ [])
    (heq : "+".intercalate path = "+".intercalate path') : path = path' := by
  have hs := congrArg (Text.segments '+') heq
  rwa [Text.segments_intercalate rfl h hne, Text.segments_intercalate rfl h' hne'] at hs

/-- Two written names are the same only if their namespaces and paths are. -/
theorem text_inj {q q' : QualifiedName} (h : ∀ name ∈ q.path, typeNameFault? name = none)
    (h' : ∀ name ∈ q'.path, typeNameFault? name = none) (hne : q.path ≠ []) (hne' : q'.path ≠ [])
    (heq : q.text = q'.text) : q = q' := by
  have hdot : '.' ∉ ("+".intercalate q.path).toList := not_mem_intercalate (by decide)
    fun name hn => (typeNameFault?_eq_none_iff.1 (h name hn)).2.1
  have hdot' : '.' ∉ ("+".intercalate q'.path).toList := not_mem_intercalate (by decide)
    fun name hn => (typeNameFault?_eq_none_iff.1 (h' name hn)).2.1
  obtain ⟨hns, hpath⟩ := qualify_inj hdot hdot' heq
  have hp := intercalate_inj (fun name hn => (typeNameFault?_eq_none_iff.1 (h name hn)).2.2)
    (fun name hn => (typeNameFault?_eq_none_iff.1 (h' name hn)).2.2) hne hne' hpath
  cases q
  cases q'
  simp_all

/-- A path is written as its first name, and nothing or a plus sign and more after it. -/
theorem exists_intercalate_cons (name : String) (path : List String) :
    ∃ rest : String, "+".intercalate (name :: path) = name ++ rest ∧
      rest.toList.takeWhile (· != '+') = [] ∧ rest.toList.dropWhile (· != '+') = rest.toList := by
  cases path with
  | nil => exact ⟨"", by simp, rfl, rfl⟩
  | cons other path =>
    refine ⟨"+" ++ "+".intercalate (other :: path), ?_, by simp, by simp⟩
    rw [String.intercalate_cons_cons, String.append_assoc]

/-- Where the namespace ends in a written name, whatever is nested in the first type. -/
theorem ofText_qualify_append {ns name rest : String} (hns : '+' ∉ ns.toList)
    (hname : typeNameFault? name = none)
    (hrest : rest.toList.takeWhile (· != '+') = [] ∧
      rest.toList.dropWhile (· != '+') = rest.toList) :
    ofText (qualify ns name ++ rest) = ⟨ns, Text.segments '+' (name ++ rest)⟩ := by
  obtain ⟨-, hdot, hplus⟩ := typeNameFault?_eq_none_iff.1 hname
  have hall : ∀ c ∈ (qualify ns name).toList, (c != '+') = true := by
    intro c hc
    rw [bne_iff_ne]
    rintro rfl
    unfold qualify at hc
    split at hc
    · exact hplus hc
    · have hc' : '+' ∈ ns.toList ∨ '+' ∈ name.toList := by simpa using hc
      exact hc'.elim hns hplus
  have houter : (qualify ns name ++ rest).toList.takeWhile (· != '+') = (qualify ns name).toList := by
    rw [String.toList_append, List.takeWhile_append_of_pos hall, hrest.1, List.append_nil]
  have hnested : (qualify ns name ++ rest).toList.dropWhile (· != '+') = rest.toList := by
    rw [String.toList_append, List.dropWhile_append_of_pos hall, hrest.2]
  have hsplit := splitLast?_qualify ns hdot
  by_cases he : ns = ""
  · subst he
    simp only [ofText, houter, hsplit, if_true]
    rfl
  · simp only [ofText, houter, hnested, hsplit, he, if_false]
    rw [← String.toList_append, String.ofList_toList, String.ofList_toList]

/-- A written name is read back, if no plus sign in the namespace looks like the end of a name. -/
theorem ofText_text {q : QualifiedName} (hns : '+' ∉ q.ns.toList)
    (h : ∀ name ∈ q.path, typeNameFault? name = none) (hne : q.path ≠ []) :
    ofText q.text = q := by
  have hpath : Text.segments '+' ("+".intercalate q.path) = q.path :=
    Text.segments_intercalate rfl
      (fun name hn => (typeNameFault?_eq_none_iff.1 (h name hn)).2.2) hne
  obtain ⟨ns, path⟩ := q
  obtain ⟨name, path, rfl⟩ := List.exists_cons_of_ne_nil hne
  obtain ⟨rest, htext, hrest⟩ := exists_intercalate_cons name path
  rw [text, htext, qualify_append, ofText_qualify_append hns (h name List.mem_cons_self) hrest,
    ← htext, hpath]

/-! ### Reading any text -/

/-- The part of a written name before the first plus sign. -/
def outermost (s : String) : List Char := s.toList.takeWhile (· != '+')

/-- The part of a written name behind the last dot before the first plus sign. -/
def withoutNamespace (s : String) : String :=
  String.ofList ((outermost s).rtakeWhile (· != '.') ++ s.toList.dropWhile (· != '+'))

/-- The text begins with a dot, and no other dot is before the first plus sign. -/
def LeadingDot (s : String) : Prop := ∃ rest : String, s = "." ++ rest ∧ '.' ∉ outermost rest

theorem ne_of_notMem {c : Char} {cs : List Char} (h : c ∉ cs) : ∀ d ∈ cs, (d != c) = true := by
  intro d hd
  rw [bne_iff_ne]
  rintro rfl
  exact h hd

theorem outermost_append {ns : String} (h : '+' ∉ ns.toList) (rest : String) :
    outermost (ns ++ "." ++ rest) = ns.toList ++ '.' :: outermost rest := by
  rw [outermost, String.toList_append, String.toList_append, List.append_assoc,
    List.takeWhile_append_of_pos (ne_of_notMem h)]
  simp [outermost]

theorem dropWhile_append {ns : String} (h : '+' ∉ ns.toList) (rest : String) :
    (ns ++ "." ++ rest).toList.dropWhile (· != '+') = rest.toList.dropWhile (· != '+') := by
  rw [String.toList_append, String.toList_append, List.append_assoc,
    List.dropWhile_append_of_pos (ne_of_notMem h)]
  simp

theorem rtakeWhile_append_cons {c : Char} (before : List Char) {after : List Char} (h : c ∉ after) :
    (before ++ c :: after).rtakeWhile (· != c) = after := by
  have hreverse : (before ++ c :: after).reverse = after.reverse ++ c :: before.reverse := by simp
  rw [List.rtakeWhile, hreverse,
    List.takeWhile_append_of_pos (ne_of_notMem (mt List.mem_reverse.1 h))]
  simp

theorem append_dropWhile_outermost (s : String) :
    outermost s ++ s.toList.dropWhile (· != '+') = s.toList :=
  List.takeWhile_append_dropWhile

theorem plus_notMem_outermost (s : String) : '+' ∉ outermost s :=
  fun h => absurd (List.mem_takeWhile_imp h) (by simp)

/-- A text has no dot before the first plus sign, or it is cut at the last one. -/
theorem dot_cases (s : String) :
    '.' ∉ outermost s ∨
      ∃ ns rest, s = ns ++ "." ++ rest ∧ '+' ∉ ns.toList ∧ '.' ∉ outermost rest := by
  refine or_iff_not_imp_left.2 fun hmem => ?_
  obtain ⟨after, before, hreverse, hafter⟩ :=
    List.eq_append_cons_of_mem (List.mem_reverse.2 (Decidable.not_not.1 hmem))
  have houter : outermost s = before.reverse ++ '.' :: after.reverse := by
    rw [← List.reverse_reverse (outermost s), hreverse]
    simp
  let ns := String.ofList before.reverse
  let rest := String.ofList (after.reverse ++ s.toList.dropWhile (· != '+'))
  have hs : s = ns ++ "." ++ rest := by
    apply String.toList_inj.1
    rw [← append_dropWhile_outermost s, houter]
    simp [ns, rest]
  have hns : '+' ∉ ns.toList := by
    have hplus := plus_notMem_outermost s
    rw [houter] at hplus
    rw [String.toList_ofList]
    exact fun h => hplus (List.mem_append_left _ h)
  have hrest : outermost rest = after.reverse := by
    have hcut := outermost_append hns rest
    rw [← hs, houter, String.toList_ofList] at hcut
    exact (List.cons.inj (List.append_cancel_left hcut)).2.symm
  exact ⟨ns, rest, hs, hns, hrest ▸ mt List.mem_reverse.1 hafter⟩

section Cut

variable {s ns rest : String}

theorem ofText_of_notMem (h : '.' ∉ outermost s) : ofText s = ⟨"", Text.segments '+' s⟩ := by
  have hsplit : splitLast? '.' (s.toList.takeWhile (· != '+')) = none := splitLast?_eq_none h
  simp only [ofText, hsplit]

theorem withoutNamespace_of_notMem (h : '.' ∉ outermost s) : withoutNamespace s = s := by
  have hall : (outermost s).rtakeWhile (· != '.') = outermost s :=
    List.rtakeWhile_eq_self_iff.2 (ne_of_notMem h)
  rw [withoutNamespace, hall, append_dropWhile_outermost, String.ofList_toList]

theorem ofText_append (hns : '+' ∉ ns.toList) (hrest : '.' ∉ outermost rest) :
    ofText (ns ++ "." ++ rest) = ⟨ns, Text.segments '+' rest⟩ := by
  have hsplit : splitLast? '.' ((ns ++ "." ++ rest).toList.takeWhile (· != '+')) =
      some (ns.toList, outermost rest) :=
    (congrArg (splitLast? '.') (outermost_append hns rest)).trans (splitLast?_append _ hrest)
  simp only [ofText, hsplit, dropWhile_append hns, append_dropWhile_outermost, String.ofList_toList]

theorem withoutNamespace_append (hns : '+' ∉ ns.toList) (hrest : '.' ∉ outermost rest) :
    withoutNamespace (ns ++ "." ++ rest) = rest := by
  rw [withoutNamespace, outermost_append hns, rtakeWhile_append_cons _ hrest, dropWhile_append hns,
    append_dropWhile_outermost, String.ofList_toList]

theorem path_ofText (s : String) : (ofText s).path = Text.segments '+' (withoutNamespace s) := by
  rcases dot_cases s with h | ⟨ns, rest, rfl, hns, hrest⟩
  · rw [ofText_of_notMem h, withoutNamespace_of_notMem h]
  · rw [ofText_append hns hrest, withoutNamespace_append hns hrest]

theorem plus_notMem_ns_ofText (s : String) : '+' ∉ (ofText s).ns.toList := by
  rcases dot_cases s with h | ⟨ns, rest, rfl, hns, hrest⟩
  · rw [ofText_of_notMem h]
    simp
  · rwa [ofText_append hns hrest]

theorem text_ofText_eq_qualify (s : String) :
    (ofText s).text = qualify (ofText s).ns (withoutNamespace s) := by
  rw [text, path_ofText, Text.intercalate_segments rfl]

/-- The namespace and the path of a text give it back, unless it begins with its only dot. -/
theorem text_ofText (h : ¬LeadingDot s) : (ofText s).text = s := by
  rw [text_ofText_eq_qualify]
  rcases dot_cases s with hdot | ⟨ns, rest, rfl, hns, hrest⟩
  · rw [ofText_of_notMem hdot, withoutNamespace_of_notMem hdot]
    exact if_pos rfl
  · rw [ofText_append hns hrest, withoutNamespace_append hns hrest]
    refine if_neg fun hempty : ns = "" => h ⟨rest, ?_, hrest⟩
    rw [hempty, String.empty_append]

/-- Of a text that begins with its only dot, that dot is lost. -/
theorem append_text_ofText (h : LeadingDot s) : "." ++ (ofText s).text = s := by
  obtain ⟨rest, rfl, hrest⟩ := h
  have hns : '+' ∉ "".toList := by simp
  have hempty : "" ++ "." ++ rest = "." ++ rest := by rw [String.empty_append]
  rw [text_ofText_eq_qualify, ← hempty, ofText_append hns hrest, withoutNamespace_append hns hrest]
  rfl

end Cut

end QualifiedName

end QuickInfo
