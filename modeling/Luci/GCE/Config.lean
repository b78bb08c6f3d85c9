import Mathlib.Logic.Basic

/-!
# The decorated config service

`DecoratedConfig` wraps a `ConfigServer`. Each of its methods calls the prelude, when there is one,
with the method's name and request; forwards the call to the service with the context the prelude
returned, unless the prelude failed; and then lets the postlude, when there is one, replace the
error. The prelude and the postlude get the request and the response as `proto.Message` pointers,
so they may also change them: the service gets the request as the prelude left it, and the caller
the response as the postlude left it. The three methods differ only in their name and in the method
of the service they call.

The decorated service is the service when the prelude accepts every call and changes neither its
context nor its request, and the postlude leaves the response and the error it is given.
-/

namespace Luci.GCE

variable {C M : Type}

/-- A `ConfigServer` over contexts `C` and messages `M`: each method takes a context and a request,
and returns a response, or nil, and an error, or nil. -/
structure ConfigServer (C M : Type) where
  deleteVMs : C → M → Option M × Option String
  ensureVMs : C → M → Option M × Option String
  getVMs : C → M → Option M × Option String

/-- `DecoratedConfig`. The prelude returns the context, the request as it left it, and its error;
the postlude returns what it did to the response, when there is one, and the error. -/
structure DecoratedConfig (C M : Type) where
  service : ConfigServer C M
  prelude : Option (C → String → M → C × M × Option String)
  postlude : Option (C → String → Option M → Option String → (M → M) × Option String)

def DecoratedConfig.runPrelude (s : DecoratedConfig C M) (methodName : String) (c : C) (req : M) :
    C × M × Option String :=
  match s.prelude with
  | some prelude =>
    let r := prelude c methodName req
    (if r.2.2 = none then r.1 else c, r.2.1, r.2.2)
  | none => (c, req, none)

/-- A method of `DecoratedConfig`, named `methodName`, that forwards to `call` of the service. -/
def DecoratedConfig.decorate (s : DecoratedConfig C M) (methodName : String)
    (call : C → M → Option M × Option String) (c : C) (req : M) : Option M × Option String :=
  let pre := s.runPrelude methodName c req
  let res := if pre.2.2 = none then call pre.1 pre.2.1 else (none, pre.2.2)
  match s.postlude with
  | some postlude =>
    let post := postlude pre.1 methodName res.1 res.2
    (res.1.map post.1, post.2)
  | none => res

/-- `DecoratedConfig.DeleteVMs`. -/
def DecoratedConfig.deleteVMs (s : DecoratedConfig C M) : C → M → Option M × Option String :=
  s.decorate "DeleteVMs" s.service.deleteVMs

/-- `DecoratedConfig.EnsureVMs`. -/
def DecoratedConfig.ensureVMs (s : DecoratedConfig C M) : C → M → Option M × Option String :=
  s.decorate "EnsureVMs" s.service.ensureVMs

/-- `DecoratedConfig.GetVMs`. -/
def DecoratedConfig.getVMs (s : DecoratedConfig C M) : C → M → Option M × Option String :=
  s.decorate "GetVMs" s.service.getVMs

theorem DecoratedConfig.decorate_response {s : DecoratedConfig C M} {methodName : String}
    {call : C → M → Option M × Option String} {c : C} {req : M} {rsp : M}
    (h : (s.decorate methodName call c req).1 = some rsp) :
    (s.runPrelude methodName c req).2.2 = none ∧
      ∃ rsp₀, (call (s.runPrelude methodName c req).1 (s.runPrelude methodName c req).2.1).1 =
        some rsp₀ := by
  unfold decorate at h
  dsimp only at h
  by_cases hp : (s.runPrelude methodName c req).2.2 = none
  · rw [if_pos hp] at h
    refine ⟨hp, ?_⟩
    split at h
    · obtain ⟨rsp₀, hrsp, -⟩ := Option.map_eq_some'.mp h
      exact ⟨rsp₀, hrsp⟩
    · exact ⟨rsp, h⟩
  · rw [if_neg hp] at h
    split at h <;> simp at h

theorem DecoratedConfig.decorate_transparent {s : DecoratedConfig C M}
    (hpre : ∀ p ∈ s.prelude, ∀ c methodName req, p c methodName req = (c, req, none))
    (hpost : ∀ q ∈ s.postlude, ∀ c methodName rsp err, q c methodName rsp err = (id, err))
    (methodName : String) (call : C → M → Option M × Option String) :
    s.decorate methodName call = call := by
  funext c req
  rcases s with ⟨service, _ | p, _ | q⟩ <;>
    simp [decorate, runPrelude, hpre, hpost]

theorem DecoratedConfig.transparent {s : DecoratedConfig C M}
    (hpre : ∀ p ∈ s.prelude, ∀ c methodName req, p c methodName req = (c, req, none))
    (hpost : ∀ q ∈ s.postlude, ∀ c methodName rsp err, q c methodName rsp err = (id, err)) :
    s.deleteVMs = s.service.deleteVMs ∧ s.ensureVMs = s.service.ensureVMs ∧
      s.getVMs = s.service.getVMs :=
  ⟨s.decorate_transparent hpre hpost _ _, s.decorate_transparent hpre hpost _ _,
    s.decorate_transparent hpre hpost _ _⟩

def echoServer : ConfigServer Unit Nat :=
  ⟨fun _ n => (some n, none), fun _ n => (some n, none),
    fun _ n => (none, some ("no block " ++ toString n))⟩

def passThrough : DecoratedConfig Unit Nat :=
  ⟨echoServer, some fun c _ req => (c, req, none), some fun _ _ _ err => (id, err)⟩

theorem passThrough_transparent :
    passThrough.getVMs () 3 = (none, some "no block 3") ∧
      passThrough.ensureVMs () 3 = (some 3, none) :=
  have h := @DecoratedConfig.transparent _ _ passThrough (fun _ hp _ _ _ => by cases hp; rfl)
    (fun _ hq _ _ _ _ => by cases hq; rfl)
  ⟨by rw [h.2.2]; rfl, by rw [h.2.1]; rfl⟩

end Luci.GCE
