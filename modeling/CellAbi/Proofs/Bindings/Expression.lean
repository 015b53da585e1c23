import CellAbi.Bindings.Render
import CellAbi.Proofs.Text.Quoted

/-!
# Parameters as expressions

The expression that constructs a parameter in generated source stands for one parameter only, up to
the `init` marks, which it leaves out at every level.  It can be followed by all that generated
source puts behind it: the next component, the end of a list, another argument.

    (expression p).toList ++ rest = (expression q).toList ++ rest' →
      p.unmarked = q.unmarked ∧ rest = rest'
        where no period begins `rest` or `rest'`                       (`expression_append_inj`)
    p.expression = q.expression ↔ p.unmarked = q.unmarked                   (`expression_eq_iff`)
-/

namespace CellAbi.Param

/-! ## Parameters without marks -/

mutual

/-- The parameter without its `init` mark, and its components without theirs. -/
def unmarked : Param → Param
  | ⟨name, type, components, _⟩ => { name, type, components := unmarkedComponents components }

def unmarkedComponents : Option (List Param) → Option (List Param)
  | none => none
  | some ps => some (unmarkedAll ps)

def unmarkedAll : List Param → List Param
  | [] => []
  | p :: ps => unmarked p :: unmarkedAll ps

end

/-! ## The parts of an expression -/

section
variable (name type : String) (components : Option (List Param)) (init : Option Bool)

theorem unmarked_mk : unmarked ⟨name, type, components, init⟩ =
    { name, type, components := unmarkedComponents components } := rfl

theorem expression_mk : expression ⟨name, type, components, init⟩ =
    "AbiParam::new(" ++ Text.quoted name ++ ", " ++ Text.quoted type ++ ")" ++
      componentsExpression components := rfl

theorem componentsExpression_some (ps : List Param) : componentsExpression (some ps) =
    ".with_components(vec![" ++ ", ".intercalate (expressions ps) ++ "])" := rfl

theorem expressions_cons (p : Param) (ps : List Param) :
    expressions (p :: ps) = p.expression :: expressions ps := rfl

end

mutual

/-- The marks make no difference to an expression. -/
theorem expression_unmarked : ∀ p : Param, p.unmarked.expression = p.expression
  | ⟨name, type, components, init⟩ => by
    rw [unmarked_mk, expression_mk, expression_mk, componentsExpression_unmarked components]

theorem componentsExpression_unmarked : ∀ ps : Option (List Param),
    componentsExpression (unmarkedComponents ps) = componentsExpression ps
  | none => rfl
  | some ps => by
    rw [unmarkedComponents, componentsExpression_some, componentsExpression_some,
      expressions_unmarked ps]

theorem expressions_unmarked : ∀ ps : List Param, expressions (unmarkedAll ps) = expressions ps
  | [] => rfl
  | p :: ps => by
    rw [unmarkedAll, expressions_cons, expressions_cons, expression_unmarked p,
      expressions_unmarked ps]

end

/-! ## Expressions as characters -/

/-- The components behind the first one. -/
def furtherExpressions : List Param → List Char
  | [] => []
  | p :: ps => ',' :: ' ' :: (p.expression.toList ++ furtherExpressions ps)

theorem toList_expression (name type : String) (components : Option (List Param))
    (init : Option Bool) :
    (expression ⟨name, type, components, init⟩).toList =
      "AbiParam::new(".toList ++ ((Text.quoted name).toList ++ (", ".toList ++
        ((Text.quoted type).toList ++
          (")".toList ++ (componentsExpression components).toList)))) := by
  rw [expression_mk]
  simp only [String.toList_append, List.append_assoc]

theorem toList_componentsExpression (ps : List Param) :
    (componentsExpression (some ps)).toList =
      ".with_components(vec![".toList ++ ((", ".intercalate (expressions ps)).toList ++
        [']', ')']) := by
  rw [componentsExpression_some]
  simp only [String.toList_append, List.append_assoc]
  rfl

theorem toList_intercalate_expressions (p : Param) (ps : List Param) :
    (", ".intercalate (expressions (p :: ps))).toList =
      p.expression.toList ++ furtherExpressions ps := by
  induction ps generalizing p with
  | nil =>
    rw [expressions_cons, expressions, String.intercalate_singleton, furtherExpressions,
      List.append_nil]
  | cons q ps ih =>
    rw [expressions_cons, expressions_cons, String.intercalate_cons_cons, ← expressions_cons,
      String.toList_append, String.toList_append, ih, furtherExpressions, List.append_assoc]
    rfl

theorem exists_expression_eq (p : Param) : ∃ rest, p.expression.toList = 'A' :: rest := by
  obtain ⟨name, type, components, init⟩ := p
  exact ⟨_, toList_expression name type components init⟩

/-! ## One parameter for each expression -/

/-- What is put behind an expression does not go on with it. -/
def Ends (rest : List Char) : Prop := rest.head? ≠ some '.'

theorem ends_furtherExpressions (ps : List Param) (rest : List Char) :
    Ends (furtherExpressions ps ++ ']' :: rest) := by
  cases ps with
  | nil => exact fun h => nomatch h
  | cons p ps => exact fun h => nomatch h

mutual

theorem expression_append_inj : ∀ (p q : Param) (rest rest' : List Char), Ends rest → Ends rest' →
    p.expression.toList ++ rest = q.expression.toList ++ rest' →
      p.unmarked = q.unmarked ∧ rest = rest'
  | ⟨name, type, components, init⟩, ⟨name', type', components', init'⟩ => by
    intro rest rest' hr hr' h
    rw [toList_expression, toList_expression] at h
    simp only [List.append_assoc] at h
    obtain ⟨hname, h⟩ := Text.quoted_append_inj (List.append_cancel_left h)
    obtain ⟨htype, h⟩ := Text.quoted_append_inj (List.append_cancel_left h)
    obtain ⟨hcomponents, hrest⟩ :=
      components_append_inj components components' _ _ hr hr' (List.append_cancel_left h)
    exact ⟨by rw [unmarked_mk, unmarked_mk, hname, htype, hcomponents], hrest⟩

theorem components_append_inj : ∀ (ps qs : Option (List Param)) (rest rest' : List Char),
    Ends rest → Ends rest' →
    (componentsExpression ps).toList ++ rest = (componentsExpression qs).toList ++ rest' →
      unmarkedComponents ps = unmarkedComponents qs ∧ rest = rest'
  | none, none => fun _ _ _ _ h => ⟨rfl, h⟩
  | none, some qs => by
    intro rest rest' hr _ h
    refine absurd ?_ hr
    rw [show rest = _ from h, toList_componentsExpression]
    rfl
  | some ps, none => by
    intro rest rest' _ hr' h
    refine absurd ?_ hr'
    rw [show rest' = _ from h.symm, toList_componentsExpression]
    rfl
  | some ps, some qs => by
    intro rest rest' _ _ h
    rw [toList_componentsExpression, toList_componentsExpression] at h
    simp only [List.append_assoc] at h
    have h := List.append_cancel_left h
    match ps, qs with
    | [], [] => exact ⟨rfl, List.append_cancel_left h⟩
    | [], q :: qs =>
      obtain ⟨tail, hq⟩ := exists_expression_eq q
      rw [toList_intercalate_expressions, hq] at h
      cases h
    | p :: ps, [] =>
      obtain ⟨tail, hp⟩ := exists_expression_eq p
      rw [toList_intercalate_expressions, hp] at h
      cases h
    | p :: ps, q :: qs =>
      rw [toList_intercalate_expressions, toList_intercalate_expressions, List.append_assoc,
        List.append_assoc] at h
      obtain ⟨hp, h⟩ := expression_append_inj p q _ _ (ends_furtherExpressions ps _)
        (ends_furtherExpressions qs _) h
      obtain ⟨hps, h⟩ := further_append_inj ps qs _ _ h
      exact ⟨by rw [unmarkedComponents, unmarkedComponents, unmarkedAll, unmarkedAll, hp, hps],
        (List.cons.inj h).2⟩

theorem further_append_inj : ∀ (ps qs : List Param) (rest rest' : List Char),
    furtherExpressions ps ++ ']' :: rest = furtherExpressions qs ++ ']' :: rest' →
      unmarkedAll ps = unmarkedAll qs ∧ rest = rest'
  | [], [] => fun _ _ h => ⟨rfl, (List.cons.inj h).2⟩
  | [], _ :: _ => fun _ _ h => nomatch h
  | _ :: _, [] => fun _ _ h => nomatch h
  | p :: ps, q :: qs => by
    intro rest rest' h
    simp only [furtherExpressions, List.cons_append, List.append_assoc, List.cons.injEq,
      true_and] at h
    obtain ⟨hp, h⟩ := expression_append_inj p q _ _ (ends_furtherExpressions ps _)
      (ends_furtherExpressions qs _) h
    obtain ⟨hps, h⟩ := further_append_inj ps qs _ _ h
    exact ⟨by rw [unmarkedAll, unmarkedAll, hp, hps], h⟩

end

/-- Two parameters have one expression exactly when they differ in `init` marks only. -/
theorem expression_eq_iff (p q : Param) :
    p.expression = q.expression ↔ p.unmarked = q.unmarked := by
  constructor
  · intro h
    exact (expression_append_inj p q [] [] nofun nofun (by rw [h])).1
  · intro h
    rw [← expression_unmarked p, ← expression_unmarked q, h]

end CellAbi.Param
