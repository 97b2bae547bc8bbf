/-
# The text of a signature can be read back

A signature is written `name(t1,t2,...)<a,b>` with no lengths and no escapes, and names and types
hold parentheses, commas and angle brackets of their own. What makes the text unambiguous is the
nesting of brackets (`Signature.Spelled`): the name is balanced and opens no parenthesis by
itself, and each type and each template argument is a part, that is, balanced, not empty and
without a comma of its own.

Then the name is what stands before the first open parenthesis, the types are what that
parenthesis encloses, cut at the open commas, and the template arguments are cut out of the rest
(`Signature.eq_of_text_eq`). An empty list of template arguments is written `<>` and differs from
none.
-/

import Bindery.Call.Signature
import Bindery.Proofs.Cpp.Nesting

namespace Bindery

open Spelling

/-- Texts with commas between them, as characters. -/
def joined (texts : List String) : List Char := [','].intercalate (texts.map String.toList)

theorem toList_join (texts : List String) : (",".intercalate texts).toList = joined texts := by
  rw [String.toList_intercalate]
  rfl

/-- Texts that are parts can be read back from their list. -/
theorem joined_injective {xs ys : List String} (hx : ∀ x ∈ xs, IsPart x.toList)
    (hy : ∀ y ∈ ys, IsPart y.toList) (h : joined xs = joined ys) : xs = ys := by
  have hmap : xs.map String.toList = ys.map String.toList := by
    refine join_injective ?_ ?_ h
    · simpa using hx
    · simpa using hy
  exact List.map_injective_iff.2 (fun _ _ => String.toList_inj.1) hmap

/-- The template arguments of a list, as they are written. -/
def templateTexts (args : Option (List TemplateArg)) : Option (List String) :=
  args.map fun args => args.map TemplateArg.text

/-- The characters of a list of template arguments. -/
def templateChars : Option (List String) → List Char
  | none => []
  | some texts => '<' :: (joined texts ++ ['>'])

theorem toList_templateArgsText (args : Option (List TemplateArg)) :
    (templateArgsText args).toList = templateChars (templateTexts args) := by
  cases args with
  | none => rfl
  | some args =>
    simp only [templateArgsText, templateTexts, templateChars, Option.map_some, String.toList_append,
      toList_join]
    rfl

/-- Template arguments that are parts can be read back. -/
theorem templateChars_injective {a b : Option (List String)}
    (ha : ∀ texts ∈ a, ∀ t ∈ texts, IsPart t.toList)
    (hb : ∀ texts ∈ b, ∀ t ∈ texts, IsPart t.toList) (h : templateChars a = templateChars b) :
    a = b := by
  cases a with
  | none =>
    cases b with
    | none => rfl
    | some ys => exact absurd h (List.cons_ne_nil _ _).symm
  | some xs =>
    cases b with
    | none => exact absurd h (List.cons_ne_nil _ _)
    | some ys =>
      have hjoin := List.append_cancel_right (List.cons.inj h).2
      rw [joined_injective (ha xs rfl) (hb ys rfl) hjoin]

namespace Signature

/-- The name of what is called, behind its namespace. -/
def qualifiedName (s : Signature) : String := qualify s.space s.name

/-- What a signature's text is unambiguous for: brackets nest, and no part is empty or holds a
comma outside its brackets. -/
structure Spelled (s : Signature) : Prop where
  balanced : Balanced s.qualifiedName.toList
  encloses : Encloses '(' s.qualifiedName.toList
  arguments : ∀ t ∈ s.argumentTypes, IsPart t.toList
  templates : ∀ texts ∈ templateTexts s.templateArgs, ∀ t ∈ texts, IsPart t.toList

theorem toList_text (s : Signature) :
    s.text.toList = s.qualifiedName.toList ++ '(' ::
      (joined s.argumentTypes ++ ')' :: templateChars (templateTexts s.templateArgs)) := by
  simp only [text, String.toList_append, toList_join, toList_templateArgsText, qualifiedName,
    List.append_assoc]
  rfl

/-- The types between their commas are balanced as a whole. -/
theorem Spelled.balanced_joined {s : Signature} (h : s.Spelled) :
    Balanced (joined s.argumentTypes) := by
  refine balanced_join fun w hw => ?_
  obtain ⟨t, ht, rfl⟩ := List.mem_map.1 hw
  exact (h.arguments t ht).balanced

/-- **Equal texts, equal parts.** The name ends at the first open parenthesis, the types at the
parenthesis that closes it. -/
theorem eq_of_text_eq {s t : Signature} (hs : s.Spelled) (ht : t.Spelled) (h : s.text = t.text) :
    s.qualifiedName = t.qualifiedName ∧ s.argumentTypes = t.argumentTypes ∧
      templateTexts s.templateArgs = templateTexts t.templateArgs := by
  have hchars := congrArg String.toList h
  rw [toList_text, toList_text] at hchars
  obtain ⟨hname, hrest⟩ := eq_of_append_mark hs.balanced.closed ht.balanced.closed hs.encloses
    ht.encloses hchars
  obtain ⟨htypes, htemplates⟩ := eq_of_append_close (by decide) hs.balanced_joined
    ht.balanced_joined hrest
  exact ⟨String.toList_inj.1 hname, joined_injective hs.arguments ht.arguments htypes,
    templateChars_injective hs.templates ht.templates htemplates⟩

/-- A text is made of the qualified name, the types and the written template arguments. -/
theorem text_eq_of_eq {s t : Signature} (hname : s.qualifiedName = t.qualifiedName)
    (htypes : s.argumentTypes = t.argumentTypes)
    (htemplates : templateTexts s.templateArgs = templateTexts t.templateArgs) :
    s.text = t.text := by
  rw [← String.toList_inj, toList_text, toList_text, hname, htypes, htemplates]

/-- **The text identifies the call.** Two well spelled signatures have one text exactly if they
have the same qualified name, the same types in the same order and the same written template
arguments, where an empty list of template arguments is not the same as none. -/
theorem text_eq_text_iff {s t : Signature} (hs : s.Spelled) (ht : t.Spelled) :
    s.text = t.text ↔ s.qualifiedName = t.qualifiedName ∧ s.argumentTypes = t.argumentTypes ∧
      templateTexts s.templateArgs = templateTexts t.templateArgs := by
  constructor
  · exact eq_of_text_eq hs ht
  · rintro ⟨hname, htypes, htemplates⟩
    exact text_eq_of_eq hname htypes htemplates

/-- A call of `blas::axpy` with types that hold commas and parentheses of their own. -/
def nested (args : Option (List TemplateArg)) : Signature :=
  .function "axpy<(1)>" (some "blas") ["M<int,V<(2)>>", "void(int,int)"] args

/-- The hypotheses of `text_eq_text_iff` are satisfiable: with names and types that nest brackets
of both kinds, an empty list of template arguments makes another text than none. -/
theorem nested_text_ne : (nested none).Spelled ∧ (nested (some [])).Spelled ∧
    (nested none).text ≠ (nested (some [])).text := by
  have hnone : (nested none).Spelled := ⟨by decide, by decide, by decide, by decide⟩
  have hempty : (nested (some [])).Spelled := ⟨by decide, by decide, by decide, by decide⟩
  refine ⟨hnone, hempty, fun h => ?_⟩
  obtain ⟨-, -, htemplates⟩ := (text_eq_text_iff hnone hempty).1 h
  exact absurd htemplates (by decide)

end Signature
end Bindery
