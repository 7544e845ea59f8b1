import QuickInfo.Proofs.Text.Subtext
import QuickInfo.Render

/-!
# Short names

The text of a type with short names is a subtext of its text with namespaces, whatever is nested in
the type and whatever the spacing is.
-/
namespace QuickInfo

open Text TypeSyntax

namespace Spacing

variable (o : Spacing)

theorem subtext_typeList_map {α : Type} {l : List α} {f g : α → String}
    (h : ∀ a ∈ l, Subtext (f a) (g a)) :
    Subtext (o.typeList (l.map f)) (o.typeList (l.map g)) := by
  cases l with
  | nil => exact .refl _
  | cons a l =>
    have hl : Subtext (o.typeArgumentSeparator.intercalate ((a :: l).map f))
        (o.typeArgumentSeparator.intercalate ((a :: l).map g)) := .intercalate_map _ h
    exact ((Subtext.refl "<").append hl).append (.refl ">")

/-- The one target, if it is there, is written with a subtext of the other. -/
def TargetBelow (a b : Option TypeSyntax) : Prop :=
  ∀ t, a = some t → ∃ u, b = some u ∧ Subtext (o.type t) (o.type u)

variable {o}

theorem TargetBelow.none (b : Option TypeSyntax) : o.TargetBelow none b :=
  fun _ h => nomatch h

theorem TargetBelow.some {t u : TypeSyntax} (h : Subtext (o.type t) (o.type u)) :
    o.TargetBelow (some t) (some u) := by
  intro t' ht
  obtain rfl := Option.some.inj ht
  exact ⟨u, rfl, h⟩

theorem subtext_attach {a b : Option TypeSyntax} (h : o.TargetBelow a b) (name : String)
    {as bs : List TypeSyntax}
    (hl : Subtext (o.typeList (o.types as)) (o.typeList (o.types bs))) :
    Subtext (o.type (attach a name as)) (o.type (attach b name bs)) := by
  have hname := (Subtext.refl name).append hl
  cases a with
  | none =>
    cases b with
    | none => exact hname
    | some u =>
      simp only [attach, type, String.append_assoc]
      exact (hname.append_left ".").append_left (o.type u)
  | some t =>
    obtain ⟨u, rfl, hu⟩ := h t rfl
    exact ((hu.append (.refl ".")).append (.refl name)).append hl

theorem TargetBelow.path {a b : Option TypeSyntax} (h : o.TargetBelow a b) (names : List String) :
    o.TargetBelow (path a names) (path b names) := by
  induction names generalizing a b with
  | nil => exact h
  | cons name names ih => exact ih (.some (subtext_attach h name (.refl _)))

theorem targetBelow_ofNamespace? (ns : String) :
    o.TargetBelow (ofNamespace? .short ns) (ofNamespace? .qualified ns) :=
  .none _

variable {ts : List ResolvedType}

/-- Type arguments, each with a subtext. -/
theorem subtext_typeList_ofTypes
    (h : ∀ t ∈ ts, Subtext (o.type (ofType .short t)) (o.type (ofType .qualified t))) :
    Subtext (o.typeList (o.types (ofTypes .short ts))) (o.typeList (o.types (ofTypes .qualified ts))) := by
  simp only [types_eq_map, ofTypes_eq_map, List.map_map]
  exact o.subtext_typeList_map h

theorem subtext_orNullable (ns name : String)
    (h : ∀ t ∈ ts, Subtext (o.type (ofType .short t)) (o.type (ofType .qualified t)))
    {a b : TypeSyntax} (hab : Subtext (o.type a) (o.type b)) :
    Subtext (o.type (orNullable ns name (ofTypes .short ts) a))
      (o.type (orNullable ns name (ofTypes .qualified ts) b)) := by
  match ts with
  | [] => exact hab
  | [t] =>
    simp only [ofTypes, orNullable]
    split
    · exact (h t (List.mem_singleton_self t)).append (.refl "?")
    · exact hab
  | _ :: _ :: _ => exact hab

theorem subtext_ofTopLevel (ns name : String)
    (h : ∀ t ∈ ts, Subtext (o.type (ofType .short t)) (o.type (ofType .qualified t))) :
    Subtext (o.type (ofTopLevel .short ns name (ofTypes .short ts)))
      (o.type (ofTopLevel .qualified ns name (ofTypes .qualified ts))) := by
  have hname := subtext_orNullable ns name h
    (subtext_attach (targetBelow_ofNamespace? ns) name (subtext_typeList_ofTypes h))
  cases ts with
  | nil =>
    simp only [ofTopLevel, ofTypes]
    split
    · exact .refl _
    · exact hname
  | cons t ts => exact hname

mutual

theorem subtext_ofType (o : Spacing) :
    ∀ t : ResolvedType, Subtext (o.type (ofType .short t)) (o.type (ofType .qualified t))
  | .definition (.topLevel ns name arguments) =>
    subtext_ofTopLevel ns name (subtext_ofTypes o arguments)
  | .definition (.nested outer name arguments) => by
    have harguments := subtext_ofTypes o arguments
    have houter := subtext_ofDefinition o outer
    simp only [ofType]
    exact subtext_orNullable _ _ harguments
      (subtext_attach (.some houter) name (subtext_typeList_ofTypes harguments))
  | .unknown ns name arguments => by
    have harguments := subtext_ofTypes o arguments
    simp only [ofType]
    exact subtext_orNullable _ _ harguments
      (subtext_attach ((targetBelow_ofNamespace? ns).path _) _ (subtext_typeList_ofTypes harguments))
  | .typeParameter name => .refl _
  | .array element rank => (subtext_ofType o element).append (.refl _)
  | .pointer element => (subtext_ofType o element).append (.refl _)
  | .byReference element => subtext_ofType o element

theorem subtext_ofDefinition (o : Spacing) :
    ∀ d : DefinitionType,
      Subtext (o.type (ofDefinition .short d)) (o.type (ofDefinition .qualified d))
  | .topLevel ns name arguments =>
    subtext_attach (targetBelow_ofNamespace? ns) name
      (subtext_typeList_ofTypes (subtext_ofTypes o arguments))
  | .nested outer name arguments =>
    subtext_attach (.some (subtext_ofDefinition o outer)) name
      (subtext_typeList_ofTypes (subtext_ofTypes o arguments))

theorem subtext_ofTypes (o : Spacing) :
    ∀ ts : List ResolvedType, ∀ t ∈ ts,
      Subtext (o.type (ofType .short t)) (o.type (ofType .qualified t))
  | [] => by simp
  | t :: ts => List.forall_mem_cons.2 ⟨subtext_ofType o t, subtext_ofTypes o ts⟩

end

end Spacing

end QuickInfo
