/-
# Kinds of calls and their keys

A key does not say what kind of call it is for. The kind goes into the text that is hashed, by the
way the name of the call is written:

| kind | text |
| --- | --- |
| constructor of `T` | `new T(...)` |
| method `m` of `T` | `T.m(...)`, and template arguments |
| operator of `T` | `T.TAG_(...)` |
| function | `ns::name(...)`, and template arguments |
| registration of `T` | `class T` |

Of a type nothing is asked but that it has no dot and does not begin with `new ` or `class `; names
and namespaces are made of the characters that can stand in a name. Then two kinds share a text in
two ways only (`Keyed.Alike`, `Keyed.signature_eq_iff_alike`):

* A method may be named like the tag of an operator. `ADD_` is an identifier, so a method `ADD_` of
  a class has the keys of its `operator+` (`Keyed.key_of_tagged_method`).
* A type may be written like the beginning of a call, as `f(` is. A type that opens parentheses
  only inside brackets is not (`Keyed.not_alike_function`).
-/

import Bindery.Header.Token
import Bindery.Proofs.Call.SignatureText
import Bindery.Proofs.Session.Callee
import Bindery.Proofs.Text.Marks

namespace Bindery

/-! ### What is written behind a name -/

namespace Signature

/-- The text of a signature behind the parenthesis that follows its name. -/
def tail (s : Signature) : String :=
  ",".intercalate s.argumentTypes ++ ")" ++ templateArgsText s.templateArgs

theorem text_eq_append_tail (s : Signature) : s.text = s.qualifiedName ++ "(" ++ s.tail := by
  simp only [text, qualifiedName, tail, String.append_assoc]

/-- Only without template arguments a text ends with a parenthesis. -/
theorem eq_of_tail_eq {s t : Signature} (ht : t.templateArgs = none) (h : s.tail = t.tail) :
    s.templateArgs = none ∧
      ",".intercalate s.argumentTypes = ",".intercalate t.argumentTypes := by
  rw [tail, tail, ht] at h
  have hchars := congrArg String.toList h
  simp only [String.toList_append] at hchars
  cases hs : s.templateArgs with
  | none =>
    rw [hs] at hchars
    exact ⟨rfl, String.toList_inj.1
      (List.append_cancel_right (List.append_cancel_right hchars))⟩
  | some args =>
    rw [hs] at hchars
    have hlast : (templateArgsText (some args)).toList.getLast? = some '>' := by
      simp only [templateArgsText, String.toList_append, List.getLast?_append]
      rfl
    have hclose : ∀ cs : List Char,
        (cs ++ ")".toList ++ (templateArgsText none).toList).getLast? = some ')' := by
      simp [templateArgsText]
    have hends := congrArg List.getLast? hchars
    rw [List.getLast?_append, hlast, hclose] at hends
    exact absurd (Option.some.inj hends) (by decide)

end Signature

/-! ### What has a key -/

/-- Every character of a text can stand in a name. -/
def IsName (s : String) : Prop := ∀ c ∈ s.toList, Header.isWordChar c

instance (s : String) : Decidable (IsName s) :=
  List.decidableBAll (Header.isWordChar ·) s.toList

/-- A text is made of names and colons. -/
def IsPath (s : String) : Prop := ∀ c ∈ s.toList, Header.isWordChar c ∨ c = ':'

/-- The spelling of a class has no dot and does not begin like a construction or a registration. -/
structure IsClassName (s : String) : Prop where
  undotted : '.' ∉ s.toList
  notNew : ¬ "new ".toList <+: s.toList
  notClass : ¬ "class ".toList <+: s.toList

namespace Callee

/-- The type and the name that are written with a dot between them. -/
def member? : Callee → Option (String × String)
  | constructor _ => none
  | method cppType name _ => some (cppType, name)
  | function _ _ _ => none
  | operator cppType op => some (cppType, op.tag)

theorem qualifiedName_of_member? {c : Callee} {cppType name : String}
    (h : c.member? = some (cppType, name)) (types : List String) :
    (c.signature types).qualifiedName = cppType ++ "." ++ name := by
  cases c with
  | constructor | function => exact absurd h nofun
  | method | operator =>
    obtain ⟨rfl, rfl⟩ := Prod.mk.inj (Option.some.inj h)
    rfl

end Callee

/-- What has a key: a call, with the types of the arguments behind its receiver, or the
registration of a class. -/
inductive Keyed where
  | call (callee : Callee) (types : List String)
  | registration (cppType : String)

namespace Keyed

/-- The kinds of what has a key. -/
inductive Kind where
  | constructor | method | function | operator | registration
  deriving DecidableEq

/-- The word that the text of a kind begins with. -/
def Kind.opener : Kind → Option String
  | constructor => some "new "
  | registration => some "class "
  | method | function | operator => none

theorem Kind.eq_or_opener_eq_none {k k' : Kind} (h : k.opener = k'.opener) :
    k = k' ∨ k.opener = none ∧ k'.opener = none := by
  cases k <;> cases k' <;> simp_all [opener]

/-- The kind of what has a key. -/
def kind : Keyed → Kind
  | call (.constructor _) _ => .constructor
  | call (.method _ _ _) _ => .method
  | call (.function _ _ _) _ => .function
  | call (.operator _ _) _ => .operator
  | registration _ => .registration

/-- The key of a call or a registration. -/
def key : Keyed → Key
  | call c types => (c.signature types).key
  | registration cppType => .ofClass cppType

/-- The types are spelled like classes, and what is called has a name. -/
def Named : Keyed → Prop
  | call (.constructor cppType) _ => IsClassName cppType
  | call (.method cppType name _) _ => IsClassName cppType ∧ IsName name
  | call (.function name space _) _ => IsName name ∧ ∀ path ∈ space, IsPath path
  | call (.operator cppType _) _ => IsClassName cppType
  | registration cppType => IsClassName cppType

/-- Two of different kinds are written alike. -/
inductive Alike : Keyed → Keyed → Prop
  /-- A method is named like an operator and has no template arguments; the arguments of both are
  written alike. -/
  | tag {cppType name : String} {op : Operator} {types types' : List String}
    (named : name = op.tag) (written : ",".intercalate types = ",".intercalate types') :
    Alike (call (.method cppType name none) types) (call (.operator cppType op) types')
  /-- A type begins with the name of a function and a parenthesis, and goes on, with what stands
  behind it, as the function does. -/
  | type {c : Callee} {cppType member name rest : String} {space : Option String}
    {templates : Option (List TemplateArg)} {types types' : List String}
    (has : c.member? = some (cppType, member))
    (begins : cppType = Spelling.qualify space name ++ "(" ++ rest)
    (goesOn : rest ++ "." ++ member ++ "(" ++ (c.signature types).tail =
      ((Callee.function name space templates).signature types').tail) :
    Alike (call c types) (call (.function name space templates) types')

/-- A key is made of its text. -/
theorem key_eq_of_signature_eq {x y : Keyed} (h : x.key.signature = y.key.signature) :
    x.key = y.key := by
  have hkey : ∀ z : Keyed, z.key = .ofSignature z.key.signature := by
    rintro (_ | _) <;> rfl
  rw [hkey x, hkey y, h]

/-! ### How texts begin -/

theorem signature_of_member? {c : Callee} {cppType member : String}
    (h : c.member? = some (cppType, member)) (types : List String) :
    (call c types).key.signature = cppType ++ "." ++ member ++ "(" ++ (c.signature types).tail := by
  show (c.signature types).text = _
  rw [Signature.text_eq_append_tail, Callee.qualifiedName_of_member? h]

theorem signature_function (name : String) (space : Option String)
    (templates : Option (List TemplateArg)) (types : List String) :
    (call (.function name space templates) types).key.signature =
      Spelling.qualify space name ++ "(" ++
        ((Callee.function name space templates).signature types).tail :=
  Signature.text_eq_append_tail _

/-- A qualified name is a path. -/
theorem isPath_qualify {name : String} {space : Option String} (hname : IsName name)
    (hspace : ∀ path ∈ space, IsPath path) : IsPath (Spelling.qualify space name) := by
  have hplain : IsPath name := fun c hc => .inl (hname c hc)
  unfold Spelling.qualify
  split
  · split
    · exact hplain
    · intro c hc
      simp only [String.toList_append, List.mem_append] at hc
      rcases hc with (hc | hc) | hc
      · exact hspace _ rfl c hc
      · exact .inr (by simpa using hc)
      · exact hplain c hc
  · exact hplain

/-- A path opens no brackets. -/
theorem level_of_isPath {s : String} (h : IsPath s) : Spelling.level s.toList = 0 := by
  have hflat : ∀ cs : List Char, (∀ c ∈ cs, Header.isWordChar c ∨ c = ':') →
      Spelling.level cs = 0 := by
    intro cs hcs
    induction cs with
    | nil => rfl
    | cons c r ih =>
      have hweight : Spelling.weight c = 0 := by
        have hc := hcs c (List.mem_cons_self ..)
        unfold Spelling.weight
        rw [if_neg, if_neg]
        · rintro (rfl | rfl) <;> exact absurd hc (by decide)
        · rintro (rfl | rfl) <;> exact absurd hc (by decide)
      rw [Spelling.level_cons, hweight, ih fun d hd => hcs d (List.mem_cons_of_mem c hd)]
      rfl
  exact hflat _ h

/-- The text of a kind begins with its word. -/
theorem prefix_of_opener {x : Keyed} {w : String} (h : x.kind.opener = some w) :
    w.toList <+: x.key.signature.toList := by
  cases x with
  | registration cppType =>
    obtain rfl := Option.some.inj h
    exact ⟨cppType.toList, (String.toList_append ..).symm⟩
  | call c types =>
    cases c with
    | method | function | operator => exact absurd h nofun
    | constructor cppType =>
      obtain rfl := Option.some.inj h
      show _ <+: (Signature.constructor cppType types).text.toList
      rw [Signature.toList_text]
      show _ <+: ("new " ++ cppType).toList ++ _
      rw [String.toList_append, List.append_assoc]
      exact List.prefix_append _ _

/-- The text of any other kind does not begin with such a word. -/
theorem not_prefix_of_opener {x : Keyed} (named : x.Named) (h : x.kind.opener = none) {w : String}
    (hw : w = "new " ∨ w = "class ") : ¬ w.toList <+: x.key.signature.toList := by
  have hdot : '.' ∉ w.toList := by rcases hw with rfl | rfl <;> decide
  have hopen : '(' ∉ w.toList := by rcases hw with rfl | rfl <;> decide
  have hblank : ' ' ∈ w.toList := by rcases hw with rfl | rfl <;> decide
  have hclass : ∀ {cppType}, IsClassName cppType → ¬ w.toList <+: cppType.toList := by
    intro cppType hc
    rcases hw with rfl | rfl
    · exact hc.notNew
    · exact hc.notClass
  have hmember : ∀ {c cppType member types}, c.member? = some (cppType, member) →
      IsClassName cppType → ¬ w.toList <+: (call c types).key.signature.toList := by
    intro c cppType member types hc hname
    rw [signature_of_member? hc]
    simp only [String.toList_append, List.append_assoc]
    exact not_prefix_append_mark hdot (hclass hname) _
  cases x with
  | registration => exact absurd h nofun
  | call c types =>
    cases c with
    | constructor => exact absurd h nofun
    | method => exact hmember rfl named.1
    | operator => exact hmember rfl named
    | function name space templates =>
      have hpath := isPath_qualify named.1 named.2
      have hnone : ¬ w.toList <+: (Spelling.qualify space name).toList := fun hbegins =>
        absurd (hpath ' ' (hbegins.subset hblank)) (by decide)
      rw [signature_function]
      simp only [String.toList_append, List.append_assoc]
      exact not_prefix_append_mark hopen hnone _

/-- What has one text begins with one word, or none. -/
theorem opener_eq {x y : Keyed} (hx : x.Named) (hy : y.Named)
    (h : x.key.signature = y.key.signature) : x.kind.opener = y.kind.opener := by
  have hword : ∀ {k : Kind} {w}, k.opener = some w → w = "new " ∨ w = "class " := by
    intro k w hk
    cases k <;> simp_all [Kind.opener]
  cases hox : x.kind.opener with
  | none =>
    cases hoy : y.kind.opener with
    | none => rfl
    | some w => exact absurd (h ▸ prefix_of_opener hoy) (not_prefix_of_opener hx hox (hword hoy))
  | some w =>
    have hw := prefix_of_opener hox
    cases hoy : y.kind.opener with
    | none => exact absurd (h ▸ hw) (not_prefix_of_opener hy hoy (hword hox))
    | some v =>
      have hv := prefix_of_opener hoy
      rw [← h] at hv
      have hwv := List.prefix_or_prefix_of_prefix hw hv
      rcases hword hox with rfl | rfl <;> rcases hword hoy with rfl | rfl
      · rfl
      · exact absurd hwv (by decide)
      · exact absurd hwv (by decide)
      · rfl

/-! ### Texts without such a word -/

/-- A method has the text of an operator only if it is named like the tag. -/
theorem alike_of_operator {cppType cppType' name : String} {op : Operator}
    {templates : Option (List TemplateArg)} {types types' : List String}
    (hx : (call (.method cppType name templates) types).Named)
    (hy : (call (.operator cppType' op) types').Named)
    (h : (call (.method cppType name templates) types).key.signature =
      (call (.operator cppType' op) types').key.signature) :
    Alike (call (.method cppType name templates) types) (call (.operator cppType' op) types') := by
  have hmethod : (Callee.method cppType name templates).member? = some (cppType, name) := rfl
  have hoperator : (Callee.operator cppType' op).member? = some (cppType', op.tag) := rfl
  have hopen : '(' ∉ name.toList := fun hmem => absurd (hx.2 _ hmem) (by decide)
  have hopen' : '(' ∉ op.tag.toList := by cases op <;> decide
  rw [signature_of_member? hmethod, signature_of_member? hoperator] at h
  have hchars := congrArg String.toList h
  simp only [String.toList_append, List.append_assoc] at hchars
  obtain ⟨htype, hrest⟩ := eq_of_append_first hx.1.undotted hy.undotted hchars
  obtain ⟨hname, htail⟩ := eq_of_append_first hopen hopen' hrest
  obtain ⟨htemplates, hwritten⟩ := Signature.eq_of_tail_eq rfl (String.toList_inj.1 htail)
  obtain rfl : templates = none := htemplates
  obtain rfl := String.toList_inj.1 htype
  exact .tag (String.toList_inj.1 hname) hwritten

/-- A member has the text of a function only if its type begins like the function. -/
theorem alike_of_function {c : Callee} {types types' : List String} {cppType member name : String}
    {space : Option String} {templates : Option (List TemplateArg)}
    (hy : (call (.function name space templates) types').Named)
    (hc : c.member? = some (cppType, member))
    (h : (call c types).key.signature =
      (call (.function name space templates) types').key.signature) :
    Alike (call c types) (call (.function name space templates) types') := by
  have hdot : '.' ∉ (Spelling.qualify space name).toList := fun hmem =>
    absurd (isPath_qualify hy.1 hy.2 _ hmem) (by decide)
  rw [signature_of_member? hc, signature_function] at h
  have hchars := congrArg String.toList h
  simp only [String.toList_append, List.append_assoc] at hchars
  rcases append_cons_cases hdot hchars with ⟨-, hmark, -⟩ | ⟨rest, htype, htail⟩
  · exact absurd hmark (by decide)
  have begins : cppType = Spelling.qualify space name ++ "(" ++ String.ofList rest := by
    rw [← String.toList_inj]
    simp only [String.toList_append, String.toList_ofList, List.append_assoc]
    exact htype
  have goesOn : String.ofList rest ++ "." ++ member ++ "(" ++ (c.signature types).tail =
      ((Callee.function name space templates).signature types').tail := by
    rw [← String.toList_inj]
    simp only [String.toList_append, String.toList_ofList, List.append_assoc]
    exact htail.symm
  exact .type hc begins goesOn

/-- What is written alike has one text. -/
theorem Alike.signature_eq {x y : Keyed} (h : Alike x y) : x.key.signature = y.key.signature := by
  cases h with
  | @tag cppType name op types types' named written =>
    have hmethod : (Callee.method cppType name none).member? = some (cppType, name) := rfl
    have hoperator : (Callee.operator cppType op).member? = some (cppType, op.tag) := rfl
    have htail : ((Callee.method cppType name none).signature types).tail =
        ((Callee.operator cppType op).signature types').tail := by
      show ",".intercalate types ++ ")" ++ templateArgsText none = ",".intercalate types' ++ ")" ++ _
      rw [written]
      rfl
    rw [signature_of_member? hmethod, signature_of_member? hoperator, named, ← htail, named]
  | type has begins goesOn =>
    rw [signature_of_member? has, signature_function, ← goesOn, begins]
    simp only [String.append_assoc]

/-- A type that opens parentheses only inside brackets is not written like the beginning of a
call. -/
theorem not_alike_function {c : Callee} {types types' : List String} {cppType member name : String}
    {space : Option String} {templates : Option (List TemplateArg)}
    (hy : (call (.function name space templates) types').Named)
    (hc : c.member? = some (cppType, member)) (encloses : Spelling.Encloses '(' cppType.toList) :
    ¬ Alike (call c types) (call (.function name space templates) types') := by
  intro h
  cases h with
  | @type _ _ _ _ rest _ _ _ _ has begins _ =>
    obtain ⟨rfl, rfl⟩ := Prod.mk.inj (Option.some.inj (hc.symm.trans has))
    have hchars := congrArg String.toList begins
    simp only [String.toList_append, List.append_assoc] at hchars
    exact encloses _ rest.toList hchars (level_of_isPath (isPath_qualify hy.1 hy.2))

/-- **Kinds share a text in two ways only.** A construction, a call of a method, a function or an
operator, and the registration of a class have different texts if they are of different kinds,
whatever their types and their template arguments, except if a method is named like the tag of an
operator of the same type, or if the type of a member is written like the beginning of a call of
the function. In these cases they have the same text, and so the same key. -/
theorem signature_eq_iff_alike {x y : Keyed} (hx : x.Named) (hy : y.Named)
    (kinds : x.kind ≠ y.kind) :
    x.key.signature = y.key.signature ↔ Alike x y ∨ Alike y x := by
  constructor
  · intro h
    rcases Kind.eq_or_opener_eq_none (opener_eq hx hy h) with hkind | ⟨hox, hoy⟩
    · exact absurd hkind kinds
    cases x with
    | registration => exact absurd hox nofun
    | call c types =>
      cases y with
      | registration => exact absurd hoy nofun
      | call d types' =>
        cases c with
        | constructor => exact absurd hox nofun
        | method =>
          cases d with
          | constructor => exact absurd hoy nofun
          | method => exact absurd rfl kinds
          | function => exact .inl (alike_of_function hy rfl h)
          | operator => exact .inl (alike_of_operator hx hy h)
        | function =>
          cases d with
          | constructor => exact absurd hoy nofun
          | function => exact absurd rfl kinds
          | method | operator => exact .inr (alike_of_function hx rfl h.symm)
        | operator =>
          cases d with
          | constructor => exact absurd hoy nofun
          | method => exact .inr (alike_of_operator hy hx h.symm)
          | function => exact .inl (alike_of_function hy rfl h)
          | operator => exact absurd rfl kinds
  · rintro (h | h)
    · exact h.signature_eq
    · exact h.signature_eq.symm

/-- The addition of an `int` to a `P`. -/
def addition : Keyed := call (.operator "P" .add) ["int"]

/-- A method of `P` that is named like the tag of an operator. -/
def taggedMethod (templates : Option (List TemplateArg)) : Keyed :=
  call (.method "P" "ADD_" templates) ["int"]

theorem named_addition : addition.Named := ⟨by decide, by decide, by decide⟩

theorem named_taggedMethod (templates : Option (List TemplateArg)) :
    (taggedMethod templates).Named :=
  ⟨⟨by decide, by decide, by decide⟩, by decide⟩

/-- The hypotheses of `signature_eq_iff_alike` are satisfiable: with template arguments even a
method that is named like the tag has a text of its own. -/
theorem signature_ne_of_templates :
    (taggedMethod (some [])).Named ∧ addition.Named ∧
      (taggedMethod (some [])).kind ≠ addition.kind ∧
      (taggedMethod (some [])).key.signature ≠ addition.key.signature := by
  have kinds : (taggedMethod (some [])).kind ≠ addition.kind := by decide
  refine ⟨named_taggedMethod _, named_addition, kinds, fun h => ?_⟩
  rcases (signature_eq_iff_alike (named_taggedMethod _) named_addition kinds).1 h with h | h
  · cases h
  · cases h

/-- A method can share its key with an operator, although something else is called. -/
theorem key_of_tagged_method :
    (taggedMethod none).Named ∧ addition.Named ∧ (taggedMethod none).kind ≠ addition.kind ∧
      (taggedMethod none).key = addition.key ∧
      (Callee.method "P" "ADD_" none).target ≠ (Callee.operator "P" .add).target := by
  have halike : Alike (taggedMethod none) addition := .tag rfl rfl
  exact ⟨named_taggedMethod _, named_addition, by decide, key_eq_of_signature_eq halike.signature_eq, nofun⟩

end Keyed
end Bindery
