import Mathlib.Data.List.Nodup
import TypeSuite.Proofs.Compile.Session

/-!
# Lookups in a session

A session of the resolver of declared names answers one node after the other and remembers what it
has answered. `session_transparent` says that the memory is never noticed: each answer is that of a
session of its own, and the cache ends with a single entry for each node that was asked for.
-/

namespace TypeSuite.Resolver

/-- A session that is asked for nodes in order: its answers, and its cache at the end. -/
def session (ns : List Node) : List (Option String) × Cache :=
  (ns.mapM declared).run []

/-- The answer of a session that is asked for one node only. -/
def freshAnswer (n : Node) : Option String :=
  ((declared n).run []).1

/-- A session of its own answers by the text of the node. -/
theorem fresh_answer_eq (n : Node) : freshAnswer n = declaredName? n :=
  (faithful_nil.declared n).1

/-- A cache has a single entry for each node that was asked for, under which is the answer that is
given without a cache. -/
structure Cache.Remembers (cache : Cache) (asked : List Node) : Prop where
  distinct : (cache.map (·.1)).Nodup
  entries : ∀ n answer, (n, answer) ∈ cache ↔ n ∈ asked ∧ answer = declaredName? n

variable {cache : Cache} {asked : List Node}

/-- Without questions, nothing is remembered. -/
theorem remembers_nil : Cache.Remembers [] [] :=
  ⟨List.nodup_nil, by simp⟩

/-- What is remembered is what is given without a cache. -/
theorem Cache.Remembers.is_faithful (h : cache.Remembers asked) : cache.IsFaithful :=
  fun entry hentry => ((h.entries entry.1 entry.2).mp hentry).2

/-- A node that is found was asked for. -/
theorem Cache.Remembers.mem_of_lookup (h : cache.Remembers asked) {n : Node}
    {answer : Option String} (hfound : List.lookup n cache = some answer) : n ∈ asked := by
  obtain ⟨before, after, rfl, -⟩ := List.lookup_eq_some_iff.mp hfound
  exact ((h.entries n answer).mp (by simp)).1

/-- A node that is not found is no key of the cache. -/
theorem not_mem_keys_of_lookup {n : Node} (h : List.lookup n cache = none) :
    n ∉ cache.map (·.1) := by
  intro hkey
  obtain ⟨entry, hentry, rfl⟩ := List.mem_map.mp hkey
  have hne := List.lookup_eq_none_iff.mp h entry hentry
  simp at hne

/-- A question is remembered, and a node that is remembered already is not entered again. -/
theorem Cache.Remembers.declared (h : cache.Remembers asked) (n : Node) :
    ((Resolver.declared n).run cache).2.Remembers (asked ++ [n]) := by
  cases hfound : List.lookup n cache with
  | some answer =>
      have hrun : ((Resolver.declared n).run cache).2 = cache := by
        show (Resolver.declared n cache).2 = cache
        rw [Resolver.declared, hfound]
      have hn : n ∈ asked := h.mem_of_lookup hfound
      rw [hrun]
      refine ⟨h.distinct, fun m reply => ?_⟩
      rw [h.entries, List.mem_append, List.mem_singleton]
      constructor
      · rintro ⟨hm, hreply⟩
        exact ⟨.inl hm, hreply⟩
      · rintro ⟨hm | rfl, hreply⟩
        · exact ⟨hm, hreply⟩
        · exact ⟨hn, hreply⟩
  | none =>
      have hrun : ((Resolver.declared n).run cache).2 = cache ++ [(n, declaredName? n)] := by
        show (Resolver.declared n cache).2 = _
        rw [Resolver.declared, hfound]
      have hnew : n ∉ cache.map (·.1) := not_mem_keys_of_lookup hfound
      rw [hrun]
      constructor
      · rw [List.map_append, List.nodup_append]
        refine ⟨h.distinct, by simp, ?_⟩
        intro key hkey last hlast heq
        rw [heq, List.mem_singleton.mp hlast] at hkey
        exact hnew hkey
      · intro m reply
        rw [List.mem_append, h.entries, List.mem_append, List.mem_singleton, List.mem_singleton,
          Prod.mk.injEq]
        constructor
        · rintro (⟨hm, hreply⟩ | ⟨rfl, hreply⟩)
          · exact ⟨.inl hm, hreply⟩
          · exact ⟨.inr rfl, hreply⟩
        · rintro ⟨hm | rfl, hreply⟩
          · exact .inl ⟨hm, hreply⟩
          · exact .inr ⟨rfl, hreply⟩

/-- A session that goes on answers each node as without a cache and remembers all of them. -/
theorem Cache.Remembers.run (h : cache.Remembers asked) (ns : List Node) :
    ((ns.mapM Resolver.declared).run cache).1 = ns.map declaredName? ∧
      ((ns.mapM Resolver.declared).run cache).2.Remembers (asked ++ ns) := by
  induction ns generalizing cache asked with
  | nil =>
      rw [List.append_nil]
      exact ⟨rfl, h⟩
  | cons n rest ih =>
      obtain ⟨hanswer, -⟩ := h.is_faithful.declared n
      obtain ⟨hanswers, hcache⟩ := ih (h.declared n)
      rw [Step.run_map_m_cons, hanswer, hanswers]
      refine ⟨rfl, ?_⟩
      rwa [List.append_assoc, List.singleton_append] at hcache

/-- Caches that remember the same nodes have the same entries. -/
theorem Cache.Remembers.perm {other : Cache} {others : List Node} (h : cache.Remembers asked)
    (hother : other.Remembers others) (hsame : ∀ n, n ∈ asked ↔ n ∈ others) :
    cache.Perm other := by
  have hnodup : cache.Nodup := .of_map _ h.distinct
  have hothers : other.Nodup := .of_map _ hother.distinct
  rw [List.perm_ext_iff_of_nodup hnodup hothers]
  intro entry
  rw [h.entries, hother.entries, hsame]

/-- A session answers each node as a session of its own does. Its cache ends with a single entry for
each node that was asked for, which is the answer of a session of its own, so neither the order of
the questions nor a repetition makes a difference to the answers or to what is remembered. -/
theorem session_transparent (ns : List Node) :
    (session ns).1 = ns.map freshAnswer ∧
      ((session ns).2.map (·.1)).Nodup ∧
      (∀ n, n ∈ (session ns).2.map (·.1) ↔ n ∈ ns) ∧
      (∀ n answer, (n, answer) ∈ (session ns).2 →
        answer = freshAnswer n ∧ answer = declaredName? n) ∧
      ∀ ms : List Node, (∀ n, n ∈ ms ↔ n ∈ ns) →
        (∀ (i j : Nat) n, ms[i]? = some n → ns[j]? = some n →
          (session ms).1[i]? = (session ns).1[j]?) ∧
        (session ms).2.Perm (session ns).2 := by
  have hfresh : freshAnswer = declaredName? := funext fresh_answer_eq
  have hall := fun ms : List Node => remembers_nil.run ms
  obtain ⟨hanswers, hcache⟩ := hall ns
  rw [List.nil_append] at hcache
  refine ⟨hfresh ▸ hanswers, hcache.distinct, fun n => ?_, fun n answer hentry => ?_,
    fun ms hsame => ⟨fun i j n hi hj => ?_, ?_⟩⟩
  · constructor
    · intro hkey
      obtain ⟨⟨key, answer⟩, hentry, rfl⟩ := List.mem_map.mp hkey
      exact ((hcache.entries key answer).mp hentry).1
    · intro hn
      exact List.mem_map.mpr ⟨_, (hcache.entries n _).mpr ⟨hn, rfl⟩, rfl⟩
  · rw [hfresh]
    have hanswer := ((hcache.entries n answer).mp hentry).2
    exact ⟨hanswer, hanswer⟩
  · show ((ms.mapM Resolver.declared).run []).1[i]? = ((ns.mapM Resolver.declared).run []).1[j]?
    rw [(hall ms).1, hanswers, List.getElem?_map, List.getElem?_map, hi, hj]
  · refine (hall ms).2.perm hcache fun n => ?_
    rw [List.nil_append]
    exact hsame n

/-- Nodes of different kinds with the same text, one of them twice. -/
def alikeNodes : List Node :=
  [.identifier "1", .computedName "1", .keyword .number "1", .identifier "1",
    .keyword .string "1", .numericLiteral "1"]

/-- The same nodes in another order, of which another one is there twice. -/
def alikeNodesAgain : List Node :=
  [.keyword .string "1", .computedName "1", .numericLiteral "1", .computedName "1",
    .keyword .number "1", .identifier "1"]

/-- Nodes with the same text are remembered apart from each other, the ones without a name too. -/
theorem session_transparent_alike :
    (∀ n, n ∈ alikeNodesAgain ↔ n ∈ alikeNodes) ∧
      (session alikeNodes).1 = [some "1", none, none, some "1", none, some "1"] ∧
      (session alikeNodes).2.length = 5 ∧
      (session alikeNodesAgain).2.Perm (session alikeNodes).2 := by
  have hsame : ∀ n, n ∈ alikeNodesAgain ↔ n ∈ alikeNodes := by
    intro n
    simp only [alikeNodesAgain, alikeNodes, List.mem_cons, List.not_mem_nil]
    grind
  obtain ⟨-, -, -, -, hall⟩ := session_transparent alikeNodes
  exact ⟨hsame, by decide +kernel, by decide +kernel, (hall alikeNodesAgain hsame).2⟩

end TypeSuite.Resolver
