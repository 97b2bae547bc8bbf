/-
# The printed key and the key of a call

The tool prints the key of a call from the words of a command line alone. A session looks the
artifact of a call up under a key that it makes itself, from its catalog and from a type object. For
types `t`, template arguments `A` and a name with or without a namespace the two are as follows.

| call | printed | looked up |
| --- | --- | --- |
| function `f` in a given namespace | `ns::f(t)<A>` | `ns::f(t)<A>` |
| function `f` | `f(t)<A>` | `f(t)<A>`, behind the namespace that the catalog has for `f` |
| constructor of `T` | `new T(t)` | `new T(t)` |
| constructor of `T` with template arguments | `new T(t)` | `new T<A>(t)` |
| constructor of `T<A>` | `new T<A>(t)` | `new T<A>(t)` |

So the tool prints the key of a call of a function exactly if the namespace is given or the catalog
has none, and that of a constructor exactly if no template arguments are given apart from the name
(`CommandLine.prints_iff`).
-/

import Bindery.CommandLine.Run
import Bindery.Proofs.Session.TypeObjects
import Bindery.Proofs.Store.Directory

namespace Bindery

variable {σ τ L M : Type}

/-! ### Keys -/

/-- A name stands behind a namespace, unless the namespace is empty. -/
theorem Spelling.qualify_eq_self_iff {space : Option String} {name : String} :
    qualify space name = name ↔ ∀ ns ∈ space, ns = "" := by
  cases space with
  | none => exact iff_of_true rfl nofun
  | some ns =>
    rw [qualify]
    by_cases hempty : ns = ""
    · exact iff_of_true (if_pos hempty) fun _ h => Option.some.inj h ▸ hempty
    · refine iff_of_false (fun h => ?_) fun h => hempty (h ns rfl)
      rw [if_neg hempty] at h
      have hlength := congrArg (·.toList.length) h
      simp only [String.toList_append, List.length_append] at hlength
      have hscope : "::".toList.length = 2 := by decide
      omega

/-- What is written behind a name stays behind it. -/
theorem Spelling.qualify_append (space : Option String) (name rest : String) :
    qualify space (name ++ rest) = qualify space name ++ rest := by
  cases space with
  | none => rfl
  | some ns =>
    rw [qualify, qualify]
    split
    · rfl
    · simp only [String.append_assoc]

namespace Signature

/-- Signatures that go on alike behind their names differ in their names only. -/
theorem key_eq_iff_of_tail_eq {s t : Signature} (h : s.tail = t.tail) :
    s.key = t.key ↔ s.qualifiedName = t.qualifiedName := by
  constructor
  · intro hkey
    have htext : s.text = t.text := congrArg Key.signature hkey
    rw [text_eq_append_tail, text_eq_append_tail, h, ← String.toList_inj] at htext
    simp only [String.toList_append] at htext
    exact String.toList_inj.1 (List.append_cancel_right (List.append_cancel_right htext))
  · intro hname
    rw [key, key, text_eq_append_tail, text_eq_append_tail, h, hname]

end Signature

/-- What is reported of a key is the key. -/
theorem Report.key_injective {text text' : String}
    (h : Report.key (.ofSignature text) = Report.key (.ofSignature text')) : text = text' := by
  have hlast : ∀ text : String, '\n' ∉ ("key       : " ++ Key.hashOf text).toList := by
    intro text hmem
    rw [String.toList_append, List.mem_append] at hmem
    rcases hmem with hmem | hmem
    · exact absurd hmem (by decide)
    · exact absurd (mem_of_mem_hashOf hmem) (by decide)
  have hchars : ∀ text : String, (Report.key (.ofSignature text)).toList =
      ("signature : " ++ text).toList ++ '\n' :: ("key       : " ++ Key.hashOf text).toList ++
        ['\n'] := by
    intro text
    simp [Report.key, Report.lines, Key.ofSignature, String.join]
  rw [← String.toList_inj, hchars, hchars] at h
  -- the text may have line feeds of its own, but the line of the hash has none
  have hline := (eq_of_append_last (hlast text) (hlast text') (List.append_cancel_right h)).1
  rw [String.toList_append, String.toList_append] at hline
  exact String.toList_inj.1 (List.append_cancel_left hline)

/-! ### The key that is looked up -/

namespace Session

/-- What is left to do for a request whose artifact is at hand. -/
def answerWith (s : Session σ L) (r : Request) (artifact : Artifact L) :
    Action σ L CacheError (Val L) := do
  Action.count (·.call r.kind r.key.signature)
  let result ← artifact.invoke s.platform r.args.raw
  s.cast result r.own

/-- A session makes a request with a key for a call, and begins to answer the call by looking its
artifact up under the key. -/
def LooksUp (s : Session σ L) (a : Asked (Binding L)) (k : Key) : Prop :=
  ∃ r : Request, a.request s.catalog = .ok r ∧ r.key = k ∧ s.call a = do
    let artifact ← Action.wrapError .cache (Cache.lookup s.platform k r.source)
    Action.wrapError .cache (s.answerWith r artifact)

/-- A call for which a request is made is looked up under the key of the request. -/
theorem looksUp_of_request {s : Session σ L} {a : Asked (Binding L)} {r : Request}
    (h : a.request s.catalog = .ok r) : s.LooksUp a r.key := by
  refine ⟨r, h, rfl, ?_⟩
  rw [call_eq, h]
  exact Action.wrapError_bind SessionError.cache (Cache.lookup s.platform r.key r.source)
    (s.answerWith r)

section

variable {s : Session σ L} {args : List (Arg (Binding L))} {m : Marshalled}

theorem looksUp_function (marshals : Marshalled.ofArgs args = .ok m) (name : String)
    (options : CallOptions) :
    s.LooksUp (.function name args options)
      (Signature.function name (Request.functionSpace s.catalog name options) m.types
        options.templateArgs).key := by
  have hrequest : ∃ r, Request.function s.catalog name args options = .ok r ∧ r.key =
      (Signature.function name (Request.functionSpace s.catalog name options) m.types
        options.templateArgs).key := by
    rw [Request.function, Request.marshal, marshals]
    exact ⟨_, rfl, rfl⟩
  obtain ⟨r, hr, hkey⟩ := hrequest
  exact hkey ▸ looksUp_of_request hr

theorem looksUp_construct (marshals : Marshalled.ofArgs args = .ok m) (t : TypeObject) :
    s.LooksUp (.construct (.type t) args) (Signature.constructor t.cppType m.types).key := by
  have hrequest : ∃ r, Request.constructType t args = .ok r ∧
      r.key = (Signature.constructor t.cppType m.types).key := by
    rw [Request.constructType, Request.marshal, marshals]
    exact ⟨_, rfl, rfl⟩
  obtain ⟨r, hr, hkey⟩ := hrequest
  exact hkey ▸ looksUp_of_request hr

end

end Session

/-! ### Names of classes -/

namespace Catalog

/-- The name of a class behind the namespace that the catalog has for it. A name that the catalog
does not have, as one that has its namespace already, stands for itself. -/
def fullName (m : Catalog) (className : String) : String :=
  Spelling.qualify ((m.class? className).bind (·.space)) className

/-- A class that is found by its name stands behind its namespace. -/
theorem fullName_name {m : Catalog} {c : ClassEntry} (h : m.class? c.name = some c) :
    m.fullName c.name = c.qualifiedName := by
  rw [fullName, h]
  rfl

end Catalog

/-- A type object is spelled with the full name of its class and the template arguments. -/
theorem Session.cppType_of_classType {s : Session σ L} {className : String}
    {args : Option (List TemplateArg)} {b b' : Bench σ L} {v : Session.Val L}
    (h : exec (s.classType className args) b = (.ok v, b')) :
    ∃ t : TypeObject, v = .type t ∧
      t.cppType = s.catalog.fullName className ++ templateArgsText args := by
  rw [classType] at h
  split at h
  · obtain ⟨_, b₁, -, h⟩ := exec_bind_eq_ok h
    obtain rfl := Except.ok.inj (congrArg Prod.fst h)
    exact ⟨_, rfl, rfl⟩
  · obtain rfl := Except.ok.inj (congrArg Prod.fst h)
    exact ⟨_, rfl, rfl⟩

/-- A class that is registered already is a type, and nothing is done. -/
theorem Session.exec_classType_of_known {s : Session σ L} {b : Bench σ L} {className : String}
    {args : Option (List TemplateArg)} {d : Binding L}
    (closed : (!(s.catalog.class? className).any (·.isTemplate) || args.isSome) = true)
    (known : b.cache.class?
      (Spelling.normalize (s.catalog.fullName className ++ templateArgsText args)) = some d) :
    exec (s.classType className args) b =
      (.ok (.type ⟨s.catalog.fullName className ++ templateArgsText args,
        Spelling.bare className⟩), b) := by
  rw [classType_of_registered closed]
  exact (exec_registeredType_iff _ _ b).2 ⟨d, known⟩

/-! ### The key that is printed -/

namespace CommandLine

/-- Template arguments add nothing to a name only if there are none. -/
theorem eq_append_templateList_iff {text : String} {templates : List String} :
    text = text ++ templateArgsText (templateList templates) ↔ templates = [] := by
  rw [← String.toList_inj, String.toList_append, List.self_eq_append_right,
    toList_templateArgsText]
  cases templates with
  | nil => exact iff_of_true rfl rfl
  | cons t ts => exact iff_of_false (List.cons_ne_nil _ _) (List.cons_ne_nil t ts)

/-- A task prints a key, fails at nothing and changes nothing. -/
def Host.Prints (h : Host τ M) (settings : Settings) (w : World τ M) (t : Task) (k : Key) : Prop :=
  (h.perform settings t).run w = ({ text := Report.key k }, w)

/-- The task prints the key of a signature exactly if it is that of the words. -/
theorem Host.prints_key_iff {h : Host τ M} {settings : Settings} {w : World τ M} {name : String}
    {types : List String} {space : Option String} {templates : List String} {constructor : Bool}
    {s : Signature} :
    h.Prints settings w (.hash name types space templates constructor) s.key ↔
      (signatureOf name types space templates constructor).key = s.key := by
  constructor
  · intro hprints
    have htext := congrArg (·.1.text) hprints
    exact congrArg Key.ofSignature (Report.key_injective htext)
  · intro hkey
    rw [Prints, ← hkey]
    rfl

/-- The words say which function is called exactly if they give the same namespace. -/
theorem key_signatureOf_function_iff {name : String} {types : List String}
    {space space' : Option String} {templates : List String} :
    (signatureOf name types space templates false).key =
        (Signature.function name space' types (templateList templates)).key ↔
      Spelling.qualify space name = Spelling.qualify space' name :=
  Signature.key_eq_iff_of_tail_eq rfl

/-- The words say which type is constructed exactly if they spell it without template arguments. -/
theorem key_signatureOf_constructor_iff {name cppType : String} {types : List String}
    {space : Option String} {templates : List String} :
    (signatureOf name types space templates true).key =
        (Signature.constructor cppType types).key ↔
      Spelling.qualify space name = cppType := by
  have htail : (signatureOf name types space templates true).tail =
    (Signature.constructor cppType types).tail := rfl
  rw [Signature.key_eq_iff_of_tail_eq htail]
  show "new " ++ Spelling.qualify space name = "new " ++ cppType ↔ _
  rw [← String.toList_inj, String.toList_append, String.toList_append,
    List.append_cancel_left_eq, String.toList_inj]

/-- **When the key that is printed is the key of the call.** Whatever the catalog of a session has,
for any name, namespace, template arguments and arguments that can be passed: the key that the tool
prints for the types of the arguments is the key under which the session looks up a call of the
function exactly if the namespace is given, or the catalog has none for the function. It is the
key under which the session looks up a construction, on the type object of a class of that full name
with the template arguments, exactly if there are no template arguments; and it always is if the
template arguments are written behind the name. -/
theorem prints_iff (h : Host τ M) (settings : Settings) (w : World τ M) (s : Session σ L)
    (name : String) (space : Option String) (templates : List String) (own : Bool)
    {args : List (Arg (Binding L))} {types : List String} {m : Marshalled}
    (canonical : args.mapM Arg.cppType = .ok types) (marshals : Marshalled.ofArgs args = .ok m) :
    (∃ k, s.LooksUp (.function name args { templateArgs := templateList templates, space, own }) k ∧
      (h.Prints settings w (.hash name types space templates false) k ↔
        (space = none → ∀ f ∈ s.catalog.function? name, ∀ ns ∈ f.space, ns = ""))) ∧
    ∀ className b b' v, s.catalog.fullName className = Spelling.qualify space name →
      exec (s.classType className (templateList templates)) b = (.ok v, b') →
      ∃ k, s.LooksUp (.construct v args) k ∧
        (h.Prints settings w (.hash name types space templates true) k ↔ templates = []) ∧
        h.Prints settings w
          (.hash (name ++ templateArgsText (templateList templates)) types space [] true) k := by
  obtain rfl : m.types = types :=
    Except.ok.inj ((Marshalled.types_of_ofArgs marshals).symm.trans canonical)
  constructor
  · refine ⟨_, Session.looksUp_function marshals name _, ?_⟩
    rw [Host.prints_key_iff, key_signatureOf_function_iff]
    cases space with
    | some ns => exact iff_of_true rfl nofun
    | none =>
      show name = Spelling.qualify ((s.catalog.function? name).bind (·.space)) name ↔ _
      rw [eq_comm, Spelling.qualify_eq_self_iff]
      cases s.catalog.function? name <;> simp
  · intro className b b' v hname htype
    obtain ⟨t, rfl, hcpp⟩ := Session.cppType_of_classType htype
    refine ⟨_, Session.looksUp_construct marshals t, ?_, ?_⟩
    · rw [Host.prints_key_iff, key_signatureOf_constructor_iff, hcpp, hname]
      exact eq_append_templateList_iff
    · rw [Host.prints_key_iff, key_signatureOf_constructor_iff, hcpp, hname]
      exact Spelling.qualify_append space name _

/-! ### A library in a namespace -/

namespace Geo

/-- A class in a namespace. -/
def cell : ClassEntry := ⟨"Cell", some "geo", false, none, none, [.constructor]⟩

/-- A template in the namespace. -/
def grid : ClassEntry := ⟨"Grid", some "geo", true, none, none, [.constructor]⟩

/-- A function in the namespace. -/
def area : FunctionEntry := ⟨"area", some "geo", ["(int, int)"], none⟩

/-- The catalog of the namespace. -/
def catalog : Catalog := ⟨[], [], [cell, grid], [area], []⟩

/-- A session over the library. -/
def session : Session Script.Stage String := ⟨Script.platform {}, catalog, .ofRows []⟩

/-- The registration of a class. -/
def binding (cppType : String) : Binding String := ⟨cppType, "f_0", cppType, "f_0"⟩

/-- A bench at which the class and an instance of the template are registered. -/
def bench : Bench Script.Stage String where
  cache := {
    dir := "/build"
    context := {}
    classes := [("geo::Cell", binding "geo::Cell"),
      ("geo::Grid<double>", binding "geo::Grid<double>")] }
  world := ⟨{}, {}, 0⟩

/-- The tool, where no program can be run. -/
def host : Host Script.Stage String where
  dir := "/"
  env := []
  libraries := Script.platform {}
  execute := fun _ => pure .notFound

/-- Two integers. -/
def args : List (Arg (Binding String)) := [.owned (.int 3), .owned (.int 4)]

end Geo

open Geo in
/-- The hypotheses of `prints_iff` are satisfiable: the keys of a function in its namespace and of
the constructor of a class are printed as they are looked up. -/
theorem prints_geometry :
    args.mapM Arg.cppType = .ok ["int", "int"] ∧
    (∃ k, session.LooksUp (.function "area" args { space := some "geo" }) k ∧
      host.Prints {} bench.world (.hash "area" ["int", "int"] (some "geo") [] false) k) ∧
    ∃ v k, exec (session.classType "Cell" none) bench = (.ok v, bench) ∧
      session.LooksUp (.construct v args) k ∧
      host.Prints {} bench.world (.hash "Cell" ["int", "int"] (some "geo") [] true) k := by
  have canonical : args.mapM Arg.cppType = .ok ["int", "int"] := rfl
  have marshals : Marshalled.ofArgs args = .ok _ := rfl
  have known :
      bench.cache.class? (Spelling.normalize "geo::Cell") = some (binding "geo::Cell") := by
    rw [show Spelling.normalize "geo::Cell" = "geo::Cell" by decide]
    rfl
  have registered : exec (session.classType "Cell" none) bench = (.ok (.type _), bench) :=
    Session.exec_classType_of_known rfl known
  have fullName : catalog.fullName cell.name = cell.qualifiedName := Catalog.fullName_name rfl
  have harea := prints_iff host {} bench.world session "area" (some "geo") [] false canonical
    marshals
  have hcell := prints_iff host {} bench.world session "Cell" (some "geo") [] false canonical
    marshals
  obtain ⟨k, hlooks, hprints⟩ := harea.1
  obtain ⟨k', hlooks', hprints'⟩ := hcell.2 "Cell" bench bench _ fullName registered
  exact ⟨canonical, ⟨k, hlooks, hprints.2 nofun⟩, _, k', registered, hlooks', hprints'.1.2 rfl⟩

open Geo in
/-- Without its namespace a function is printed as if it had none, and without its template
arguments, which are given, an instance of a template is printed as the template. -/
theorem not_prints_geometry :
    (∃ k, session.LooksUp (.function "area" args {}) k ∧
      k.signature = "geo::area(int,int)" ∧
      ¬ host.Prints {} bench.world (.hash "area" ["int", "int"] none [] false) k) ∧
    ∃ v k, exec (session.classType "Grid" (some [.raw "double"])) bench = (.ok v, bench) ∧
      session.LooksUp (.construct v args) k ∧
      k.signature = "new geo::Grid<double>(int,int)" ∧
      ¬ host.Prints {} bench.world
        (.hash "Grid" ["int", "int"] (some "geo") ["double"] true) k := by
  have marshals : Marshalled.ofArgs args = .ok _ := rfl
  constructor
  · refine ⟨_, Session.looksUp_function marshals "area" {}, by decide, fun hprints => ?_⟩
    have hname := key_signatureOf_function_iff.1 (Host.prints_key_iff.1 hprints)
    exact absurd hname (by decide)
  · have known : bench.cache.class? (Spelling.normalize "geo::Grid<double>") =
        some (binding "geo::Grid<double>") := by
      rw [show Spelling.normalize "geo::Grid<double>" = "geo::Grid<double>" by decide]
      rfl
    have registered : exec (session.classType "Grid" (some [.raw "double"])) bench =
        (.ok (.type _), bench) := Session.exec_classType_of_known rfl known
    refine ⟨_, _, registered, Session.looksUp_construct marshals _, by decide, fun hprints => ?_⟩
    have hname := key_signatureOf_constructor_iff.1 (Host.prints_key_iff.1 hprints)
    exact absurd hname (by decide)

end CommandLine
end Bindery
