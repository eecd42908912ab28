import TypeSuite.Proofs.Compile.Effects
import TypeSuite.Proofs.Node.Equality

/-!
# Sessions of the resolver of declared names

The resolver of declared names answers from its cache, and the answers in the cache are the ones it
gives without it. `Performs.settles` draws the consequence for compilations: what neither reads the
exports nor adds to them has the same outcome wherever it runs.
-/

namespace TypeSuite

namespace Resolver

/-- Every answer in a cache is the one that is given without it. -/
def Cache.IsFaithful (cache : Cache) : Prop :=
  ∀ entry ∈ cache, entry.2 = declaredName? entry.1

/-- A cache without answers is faithful. -/
theorem faithful_nil : Cache.IsFaithful [] :=
  fun _ hentry => absurd hentry List.not_mem_nil

/-- From a faithful cache comes the answer that is given without it. -/
theorem Cache.IsFaithful.lookup {cache : Cache} (h : cache.IsFaithful) {n : Node}
    {answer : Option String} (hfound : List.lookup n cache = some answer) :
    answer = declaredName? n := by
  induction cache with
  | nil => cases hfound
  | cons entry rest ih =>
      rw [List.lookup_cons] at hfound
      split at hfound
      case h_1 hsame =>
        obtain rfl : n = entry.1 := Node.eq_of_same hsame
        exact Option.some.inj hfound ▸ h entry List.mem_cons_self
      case h_2 => exact ih (fun e he => h e (List.mem_cons_of_mem _ he)) hfound

/-- A session with a faithful cache answers as without a cache, and its cache stays faithful. -/
theorem Cache.IsFaithful.declared {cache : Cache} (h : cache.IsFaithful) (n : Node) :
    ((declared n).run cache).1 = declaredName? n ∧ ((declared n).run cache).2.IsFaithful := by
  cases hfound : List.lookup n cache with
  | some answer =>
      have hrun : (Resolver.declared n).run cache = (answer, cache) := by
        show Resolver.declared n cache = _
        rw [Resolver.declared, hfound]
      rw [hrun]
      exact ⟨h.lookup hfound, h⟩
  | none =>
      have hrun : (Resolver.declared n).run cache =
          (declaredName? n, cache ++ [(n, declaredName? n)]) := by
        show Resolver.declared n cache = _
        rw [Resolver.declared, hfound]
      rw [hrun]
      refine ⟨rfl, fun entry hentry => ?_⟩
      obtain hold | hnew := List.mem_append.mp hentry
      · exact h entry hold
      · rw [List.mem_singleton.mp hnew]

end Resolver

namespace Compile

open Step (run_bind_of_error run_bind_of_ok)

variable {α β : Type} {settings : CompileSettings Resolver.Cache}

/-- A computation has one outcome in all sessions with a faithful cache, keeps the cache faithful
and leaves the exports alone. -/
def Settles (x : Compile Resolver.Cache α) (outcome : Except CompileError α) : Prop :=
  ∀ p : Progress Resolver.Cache, p.session.IsFaithful →
    (x.run p).1 = outcome ∧ (x.run p).2.exports = p.exports ∧ (x.run p).2.session.IsFaithful

/-- A name is resolved as without a cache. -/
theorem settles_resolve_name (hresolver : settings.resolver = Resolver.declared) (n : Node) :
    Settles (resolveName settings n)
      (.ok ((Resolver.declaredName? n).getD settings.fallback)) := by
  intro p hp
  obtain ⟨events, hrun⟩ := run_resolve_name settings n p
  obtain ⟨hanswer, hfaithful⟩ := hp.declared n
  rw [hresolver, hanswer] at hrun
  rw [hrun]
  exact ⟨rfl, rfl, hfaithful⟩

/-- Two computations with one outcome each have one outcome after each other. -/
theorem settles_bind {x : Compile Resolver.Cache α} {f : α → Compile Resolver.Cache β}
    {first : Except CompileError α} {second : α → Except CompileError β} (hx : Settles x first)
    (hf : ∀ a, Settles (f a) (second a)) : Settles (x >>= f) (first >>= second) := by
  intro p hp
  cases hrun : x.run p with
  | mk outcome q =>
      obtain ⟨houtcome, hexports, hq⟩ := hx p hp
      rw [hrun] at houtcome hexports hq
      cases outcome with
      | error e =>
          rw [run_bind_of_error hrun, ← houtcome]
          exact ⟨rfl, hexports, hq⟩
      | ok a =>
          obtain ⟨hsecond, hkept, hr⟩ := hf a q hq
          rw [run_bind_of_ok hrun, ← houtcome]
          exact ⟨hsecond, hkept.trans hexports, hr⟩

/-- What neither reads the exports nor adds to them has one outcome. -/
theorem Performs.settles (hresolver : settings.resolver = Resolver.declared)
    {x : Compile Resolver.Cache α} (h : Performs settings (fun _ => False) x) :
    ∃ outcome, Settles x outcome := by
  induction h with
  | pure a => exact ⟨.ok a, fun p hp => ⟨rfl, rfl, hp⟩⟩
  | throw e => exact ⟨.error e, fun p hp => ⟨rfl, rfl, hp⟩⟩
  | report event => exact ⟨.ok (), fun p hp => ⟨rfl, rfl, hp⟩⟩
  -- Neither of these two effects is permitted.
  | read hallowed | add d hallowed => exact hallowed.elim
  | resolveName n => exact ⟨_, settles_resolve_name hresolver n⟩
  | bind _ _ hx hf =>
      obtain ⟨first, hfirst⟩ := hx
      exact ⟨_, settles_bind hfirst fun a => (hf a).choose_spec⟩

end Compile

end TypeSuite
