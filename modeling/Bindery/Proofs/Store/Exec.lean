/-
# Actions as functions of a state

Actions at a bench, loading in a world and opening a directory are all computations that work on a
state and may fail. Such a computation gives a result or an error and leaves a state behind
(`exec`). Each way to put computations together has one equation here, so that what follows never
unfolds the monad.

What loading a library can do is little: it lets the probe of a call run, and touches no file
(`Load.files_exec_artifact`, `Load.exec_binding`).
-/

import Bindery.Store.Lookup

namespace Bindery

section

variable {S ε ε' α β : Type}

/-- What a computation gives in a state, and the state that it leaves. -/
def exec (f : ExceptT ε (StateM S) α) (s : S) : Except ε α × S := f s

/-- What gives a result does not fail. -/
theorem ok_ne_error {a : α} {e : ε} {s t : S} :
    ((.ok a, s) : Except ε α × S) ≠ (.error e, t) := nofun

@[simp] theorem exec_pure (a : α) (s : S) :
    exec (pure a : ExceptT ε (StateM S) α) s = (.ok a, s) := rfl

@[simp] theorem exec_throw (e : ε) (s : S) :
    exec (throw e : ExceptT ε (StateM S) α) s = (.error e, s) := rfl

@[simp] theorem exec_get (s : S) : exec (get : ExceptT ε (StateM S) S) s = (.ok s, s) := rfl

@[simp] theorem exec_set (s t : S) :
    exec (set t : ExceptT ε (StateM S) PUnit) s = (.ok (), t) := rfl

@[simp] theorem exec_modify (f : S → S) (s : S) :
    exec (modify f : ExceptT ε (StateM S) PUnit) s = (.ok (), f s) := rfl

@[simp] theorem exec_lift (f : StateM S α) (s : S) :
    exec (ExceptT.lift f : ExceptT ε (StateM S) α) s = (.ok (f s).1, (f s).2) := rfl

theorem exec_bind_ok {f : ExceptT ε (StateM S) α} {g : α → ExceptT ε (StateM S) β} {s t : S} {a : α}
    (h : exec f s = (.ok a, t)) : exec (f >>= g) s = exec (g a) t := by
  show (match f s with | (r, t) => ExceptT.bindCont g r t) = _
  rw [show f s = (.ok a, t) from h]
  rfl

theorem exec_bind_error {f : ExceptT ε (StateM S) α} {g : α → ExceptT ε (StateM S) β} {s t : S}
    {e : ε} (h : exec f s = (.error e, t)) : exec (f >>= g) s = (.error e, t) := by
  show (match f s with | (r, t) => ExceptT.bindCont g r t) = _
  rw [show f s = (.error e, t) from h]
  rfl

@[simp] theorem exec_bind (f : ExceptT ε (StateM S) α) (g : α → ExceptT ε (StateM S) β) (s : S) :
    exec (f >>= g) s = match exec f s with
      | (.ok a, t) => exec (g a) t
      | (.error e, t) => (.error e, t) := by
  rcases h : exec f s with ⟨_ | a, t⟩
  · exact exec_bind_error h
  · exact exec_bind_ok h

/-- What ends well did so in both of its parts. -/
theorem exec_bind_eq_ok {f : ExceptT ε (StateM S) α} {g : α → ExceptT ε (StateM S) β} {s u : S}
    {b : β} (h : exec (f >>= g) s = (.ok b, u)) :
    ∃ a t, exec f s = (.ok a, t) ∧ exec (g a) t = (.ok b, u) := by
  rcases hf : exec f s with ⟨e | a, t⟩
  · rw [exec_bind_error hf] at h
    exact absurd h.symm ok_ne_error
  · rw [exec_bind_ok hf] at h
    exact ⟨a, t, rfl, h⟩

/-- The result of `f` does not count. -/
@[simp] theorem exec_discard (f : ExceptT ε (StateM S) α) (s : S) :
    exec (discard f) s = match exec f s with
      | (.ok _, t) => (.ok (), t)
      | (.error e, t) => (.error e, t) := by
  show exec (f >>= fun _ => pure PUnit.unit) s = _
  rw [exec_bind]
  rfl

end

variable {σ L ε ε' α : Type}

namespace Action

@[simp] theorem exec_cache (b : Bench σ L) :
    exec (cache : Action σ L ε (Cache L)) b = (.ok b.cache, b) := rfl

@[simp] theorem exec_onCache (f : Cache L → Cache L) (b : Bench σ L) :
    exec (onCache f : Action σ L ε Unit) b = (.ok (), { b with cache := f b.cache }) := rfl

@[simp] theorem exec_count (f : Stats → Stats) (b : Bench σ L) :
    exec (count f : Action σ L ε Unit) b =
      (.ok (), { b with cache := { b.cache with stats := f b.cache.stats } }) := rfl

@[simp] theorem exec_inWorld (f : StateM (World σ L) α) (b : Bench σ L) :
    exec (inWorld f : Action σ L ε α) b =
      (.ok (f b.world).1, { b with world := (f b.world).2 }) := rfl

@[simp] theorem exec_ofExcept_ok (wrap : ε' → ε) (a : α) (b : Bench σ L) :
    exec (ofExcept wrap (.ok a) : Action σ L ε α) b = (.ok a, b) := rfl

@[simp] theorem exec_ofExcept_error (wrap : ε' → ε) (e : ε') (b : Bench σ L) :
    exec (ofExcept wrap (.error e) : Action σ L ε α) b = (.error (wrap e), b) := rfl

theorem exec_onFiles_ok {f : Files L → Except FileError (Files L)} {b : Bench σ L}
    {files : Files L} (h : f b.world.files = .ok files) :
    exec (onFiles f) b = (.ok (), { b with world := { b.world with files } }) := by
  rw [onFiles, exec_bind_ok (exec_get b), h]
  rfl

theorem exec_onFiles_error {f : Files L → Except FileError (Files L)} {b : Bench σ L}
    {e : FileError} (h : f b.world.files = .error e) :
    exec (onFiles f) b = (.error (.file e), b) := by
  rw [onFiles, exec_bind_ok (exec_get b), h]
  rfl

end Action

namespace Load

@[simp] theorem exec_ask (f : StateM σ α) (w : World σ L) :
    exec (ask f : Load σ L α) w = (.ok (f w.outside).1, { w with outside := (f w.outside).2 }) := rfl

/-- Loading a file asks nothing outside and changes nothing. -/
theorem exec_library (p : Platform σ L) (path : String) (symbols : List String) (w : World σ L) :
    (exec (library p path symbols) w).2 = w := by
  rw [library, exec_bind_ok (exec_get w)]
  split
  · split <;> rfl
  · rfl

/-- Loading the library of a call touches no file, whatever its probe does. -/
theorem files_exec_artifact (p : Platform σ L) (hash path : String) (w : World σ L) :
    (exec (artifact p hash path) w).2.files = w.files := by
  have hlib := exec_library p path [hash, Source.probeSymbol hash] w
  rw [artifact, exec_bind]
  rcases h : exec (library p path [hash, Source.probeSymbol hash]) w with ⟨_ | lib, t⟩
  · rw [h] at hlib
    exact congrArg World.files hlib
  · rw [h] at hlib
    rw [← hlib]
    simp only [exec_bind, exec_ask]
    split <;> rfl

/-- A loaded library of a call goes by the hash it was asked for under. -/
theorem hash_of_exec_artifact {p : Platform σ L} {hash path : String} {w w' : World σ L}
    {a : Artifact L} (h : exec (artifact p hash path) w = (.ok a, w')) : a.hash = hash := by
  rw [artifact, exec_bind] at h
  rcases hl : exec (library p path [hash, Source.probeSymbol hash]) w with ⟨_ | lib, t⟩
  · rw [hl] at h
    exact absurd h.symm ok_ne_error
  · rw [hl] at h
    simp only [exec_bind, exec_ask] at h
    split at h
    · rw [← Except.ok.inj (congrArg Prod.fst h)]
    · exact absurd h.symm ok_ne_error

/-- Loading the library of a class changes nothing. -/
theorem exec_binding (p : Platform σ L) (qualified hash path : String) (w : World σ L) :
    (exec (binding p qualified hash path) w).2 = w := by
  have hlib := exec_library p path [Source.dropSymbol hash, Source.getSymbol hash,
    Source.setSymbol hash, Source.cppTypeSymbol hash] w
  rw [binding, exec_bind]
  split
  · rename_i h
    rw [h] at hlib
    exact hlib
  · rename_i h
    rw [h] at hlib
    exact hlib

/-- A loaded library of a class goes by the name and the hash it was asked for under. -/
theorem names_of_exec_binding {p : Platform σ L} {qualified hash path : String} {w w' : World σ L}
    {c : Binding L} (h : exec (binding p qualified hash path) w = (.ok c, w')) :
    c.qualified = qualified ∧ c.hash = hash := by
  rw [binding, exec_bind] at h
  split at h
  · obtain rfl := Except.ok.inj (congrArg Prod.fst h)
    exact ⟨rfl, rfl⟩
  · exact absurd h.symm ok_ne_error

end Load
end Bindery
