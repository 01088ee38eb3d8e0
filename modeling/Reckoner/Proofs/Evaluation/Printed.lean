import Reckoner.Proofs.Expression.Printer

/-!
# The printed expression and the value

Two sources for which the same line is printed have the same value, provided their zeros have the
same signs: the line settles everything else about what is evaluated. The proviso cannot be dropped,
since the line shows no zero as negative and a quotient can tell.
-/

namespace Reckoner.Evaluation

open Reckoner.Expr (text_eq_of_render_eq)

/-- What is printed for a source settles the expression up to the signs of zeros, and with these the
value. -/
theorem evaluate_eq_of_render_eq {source source' rest rest' : Text} {tree tree' : Expr}
    (h : Grammar.parse false source = .success tree rest)
    (h' : Grammar.parse false source' = .success tree' rest') (hline : tree.render = tree'.render) :
    tree.plain = tree'.plain ∧
      (tree.literals.filter Double.isZero = tree'.literals.filter Double.isZero →
        ∃ value, evaluate tree = .ok value ∧ evaluate tree' = .ok value) := by
  have hfits := Grammar.fits_of_parse h
  have hfits' := Grammar.fits_of_parse h'
  have htext := text_eq_of_render_eq hline
  refine ⟨(Expr.text_eq_iff hfits.wellFormed hfits'.wellFormed).mp htext, fun hzeros => ?_⟩
  obtain ⟨value, hvalue⟩ := evaluate_ok hfits
  obtain rfl := Expr.eq_of_text_eq hfits.wellFormed hfits'.wellFormed htext hzeros
  exact ⟨value, hvalue, hvalue⟩

/-- A quotient by a negative zero, written in two ways. -/
theorem evaluate_eq_of_render_eq_negative_zero :
    Grammar.parse false "1/-0".toList =
        .success
          (.binary .div (.literal (.ofDecimal false 1 0)) (.literal (.ofDecimal true 0 0))) [] ∧
      Grammar.parse false "+1.0/-0".toList = .success
        (.binary .div (.literal (.ofDecimal false 10 (-1))) (.literal (.ofDecimal true 0 0))) [] ∧
      ∃ value, evaluate (.binary .div (.literal (.ofDecimal false 1 0))
          (.literal (.ofDecimal true 0 0))) = .ok value ∧
        evaluate (.binary .div (.literal (.ofDecimal false 10 (-1)))
          (.literal (.ofDecimal true 0 0))) = .ok value := by
  have hparse : Grammar.parse false "1/-0".toList = .success
      (.binary .div (.literal (.ofDecimal false 1 0)) (.literal (.ofDecimal true 0 0))) [] := by rfl
  have hparse' : Grammar.parse false "+1.0/-0".toList = .success
      (.binary .div (.literal (.ofDecimal false 10 (-1))) (.literal (.ofDecimal true 0 0))) [] := by
    rfl
  refine ⟨hparse, hparse', (evaluate_eq_of_render_eq hparse hparse' ?_).2 ?_⟩
  · decide +kernel
  · decide +kernel

/-- One divided by zero and by negative zero are printed alike, and are different infinities. -/
theorem render_does_not_settle_value :
    ∃ tree tree', Grammar.parse false "1/0".toList = .success tree [] ∧
      Grammar.parse false "1/-0".toList = .success tree' [] ∧ tree.render = tree'.render ∧
      evaluate tree = .ok (.infinity false) ∧ evaluate tree' = .ok (.infinity true) := by
  refine ⟨.binary .div (.literal (.ofDecimal false 1 0)) (.literal (.ofDecimal false 0 0)),
    .binary .div (.literal (.ofDecimal false 1 0)) (.literal (.ofDecimal true 0 0)), rfl, rfl, ?_⟩
  decide +kernel

end Reckoner.Evaluation
