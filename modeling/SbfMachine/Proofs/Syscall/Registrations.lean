import Mathlib.Data.Finset.Card
import SbfMachine.Proofs.Syscall.Charges

/-!
# What a registry holds

A registry is filled by one request after the other. A request whose hash is taken is refused and
changes nothing, so what a registry holds under a hash is the first request with that hash. The
registry of the builtins is made at one stroke, without a look at what is taken already; no two
builtins have the same hash, so it answers as if they had been requested one by one, in any order.

## Main definitions

- `Request`, `Request.submit` — a system call that is to be registered
- `Registry.ofRequests` — the registry after a sequence of requests
- `Registry.Taken` — the hashes that a registry has an entry for
- `Registry.FirstWins` — what the registry answers after a sequence of requests
- `Registry.SameAnswers` — registries that cannot be told apart by hashes and size

## Main statements

- `Registry.getElem?_foldl_after` — the entries after a sequence of requests
- `Registry.Taken.foldl_after` — the hashes that are taken after a sequence of requests
- `Registry.withBuiltins_eq` — the registry of the builtins as a sequence of requests
- `Registry.firstRequestWins` — the answers of registries, and of that of the builtins
-/

namespace SbfMachine

/-- A system call that is to be registered: one of the host under a name, or a builtin. -/
inductive Request
  | host (name : String) (handler : Handler)
  | builtin (call : Builtin)

namespace Request

/-- What is entered if the request is granted. -/
def registration : Request → Registration
  | .host name handler => { name, handler }
  | .builtin call => { name := call.name, handler := call.invoke }

/-- The hash that the system call is to be found under. -/
def hash (request : Request) : UInt32 :=
  CallHash.ofName request.registration.name

/-- Asks a registry for an entry. -/
def submit (request : Request) (registry : Registry) :
    Except DuplicateSyscall (UInt32 × Registry) :=
  match request with
  | .host name handler => registry.register name handler
  | .builtin call => registry.registerBuiltin call

/-- The first of several requests with the given hash. -/
def first? (requests : List Request) (hash : UInt32) : Option Request :=
  requests.find? fun request => request.hash = hash

theorem first?_cons (request : Request) (requests : List Request) (hash : UInt32) :
    first? (request :: requests) hash =
      if request.hash = hash then some request else first? requests hash := by
  by_cases heq : request.hash = hash
  · rw [if_pos heq]
    exact List.find?_cons_of_pos (decide_eq_true_iff.2 heq)
  · rw [if_neg heq]
    exact List.find?_cons_of_neg (mt decide_eq_true_iff.1 heq)

theorem isSome_first?_iff {requests : List Request} {hash : UInt32} :
    (first? requests hash).isSome = true ↔ ∃ request ∈ requests, request.hash = hash := by
  rw [first?, List.find?_isSome]
  simp only [decide_eq_true_eq]

theorem of_first?_eq_some {requests : List Request} {hash : UInt32} {request : Request}
    (h : first? requests hash = some request) : request ∈ requests ∧ request.hash = hash := by
  have hhash := List.find?_some h
  exact ⟨List.mem_of_find?_eq_some h, decide_eq_true_iff.1 hhash⟩

/-- Where no two requests have the same hash, each of them is the first one of its hash. -/
theorem first?_eq_some_iff {requests : List Request} (hnodup : (requests.map hash).Nodup)
    {hash : UInt32} {request : Request} :
    first? requests hash = some request ↔ request ∈ requests ∧ request.hash = hash := by
  refine ⟨of_first?_eq_some, ?_⟩
  rintro ⟨hmem, heq⟩
  obtain ⟨first, hfirst⟩ := Option.isSome_iff_exists.1 (isSome_first?_iff.2 ⟨request, hmem, heq⟩)
  obtain ⟨hmem', heq'⟩ := of_first?_eq_some hfirst
  rw [hfirst, List.inj_on_of_nodup_map hnodup hmem' hmem (heq'.trans heq.symm)]

/-- Where no two requests have the same hash, their order does not matter. -/
theorem first?_perm {requests others : List Request} (hnodup : (requests.map hash).Nodup)
    (hperm : requests.Perm others) (hash : UInt32) : first? requests hash = first? others hash := by
  have hnodup' : (others.map Request.hash).Nodup := (hperm.map Request.hash).nodup_iff.1 hnodup
  ext request
  rw [first?_eq_some_iff hnodup, first?_eq_some_iff hnodup', hperm.mem_iff]

/-- A request is refused if its hash is taken, and entered under its hash otherwise. -/
theorem submit_eq (request : Request) (registry : Registry) :
    request.submit registry =
      if registry.contains request.hash then
        .error { name := request.registration.name, hash := request.hash }
      else
        .ok (request.hash,
          { entries := registry.entries.insert request.hash request.registration }) := by
  cases request <;> rfl

end Request

namespace Registry

/-- The registry after a request. One that is refused leaves it as it is. -/
def after (registry : Registry) (request : Request) : Registry :=
  match request.submit registry with
  | .ok (_, next) => next
  | .error _ => registry

/-- The registry after a sequence of requests. -/
def ofRequests (requests : List Request) : Registry :=
  requests.foldl after empty

variable {registry : Registry} {request : Request} {requests : List Request}

-- ════════════════════════════════════════════════════════════════════════
-- Entries
-- ════════════════════════════════════════════════════════════════════════

theorem after_of_taken (h : registry.contains request.hash = true) :
    registry.after request = registry := by
  rw [after, request.submit_eq, if_pos h]

theorem after_of_free (h : registry.contains request.hash = false) :
    registry.after request =
      { entries := registry.entries.insert request.hash request.registration } := by
  rw [after, request.submit_eq, if_neg (by rw [h]; decide)]

/-- A request adds an entry if there is none yet, and changes no other. -/
theorem getElem?_after (registry : Registry) (request : Request) (hash : UInt32) :
    (registry.after request).entries[hash]? =
      registry.entries[hash]?.or
        (if request.hash = hash then some request.registration else none) := by
  cases htaken : registry.contains request.hash with
  | true =>
    rw [after_of_taken htaken]
    split
    · next heq =>
      subst heq
      rw [contains, Std.HashMap.contains_eq_isSome_getElem?] at htaken
      rw [Option.or_of_isSome htaken]
    · rw [Option.or_none]
  | false =>
    rw [after_of_free htaken, Std.HashMap.getElem?_insert]
    by_cases heq : request.hash = hash
    · subst heq
      rw [contains, Std.HashMap.contains_eq_isSome_getElem?, Option.isSome_eq_false_iff,
        Option.isNone_iff_eq_none] at htaken
      rw [htaken, if_pos (beq_self_eq_true _), if_pos rfl, Option.none_or]
    · rw [if_neg (mt beq_iff_eq.1 heq), if_neg heq, Option.or_none]

/-- A sequence of requests adds the first one of each hash that has no entry yet. -/
theorem getElem?_foldl_after (requests : List Request) (registry : Registry) (hash : UInt32) :
    (requests.foldl after registry).entries[hash]? =
      registry.entries[hash]?.or ((Request.first? requests hash).map Request.registration) := by
  induction requests generalizing registry with
  | nil => exact Option.or_none.symm
  | cons request requests ih =>
    rw [List.foldl_cons, ih, getElem?_after, Option.or_assoc, Request.first?_cons]
    by_cases heq : request.hash = hash
    · rw [if_pos heq, if_pos heq, Option.some_or, Option.map_some]
    · rw [if_neg heq, if_neg heq, Option.none_or]

theorem getElem?_ofRequests (requests : List Request) (hash : UInt32) :
    (ofRequests requests).entries[hash]? =
      (Request.first? requests hash).map Request.registration := by
  rw [ofRequests, getElem?_foldl_after, empty, Std.HashMap.getElem?_empty, Option.none_or]

theorem contains_ofRequests (requests : List Request) (hash : UInt32) :
    (ofRequests requests).contains hash = (Request.first? requests hash).isSome := by
  rw [contains, Std.HashMap.contains_eq_isSome_getElem?, getElem?_ofRequests, Option.isSome_map]

theorem contains_ofRequests_iff {hash : UInt32} :
    (ofRequests requests).contains hash = true ↔ ∃ earlier ∈ requests, earlier.hash = hash := by
  rw [contains_ofRequests, Request.isSome_first?_iff]

/-- A request that is not refused leads to the registry with its entry. -/
theorem submit_ofRequests (h : ∀ earlier ∈ requests, earlier.hash ≠ request.hash) :
    request.submit (ofRequests requests) =
      .ok (request.hash, ofRequests (requests ++ [request])) := by
  have hfree : (ofRequests requests).contains request.hash = false := by
    rw [Bool.eq_false_iff, Ne, contains_ofRequests_iff]
    rintro ⟨earlier, hearlier, heq⟩
    exact h earlier hearlier heq
  have hafter : ofRequests (requests ++ [request]) = (ofRequests requests).after request := by
    rw [ofRequests, List.foldl_append]
    rfl
  rw [hafter, after_of_free hfree, request.submit_eq, if_neg (by rw [hfree]; decide)]

-- ════════════════════════════════════════════════════════════════════════
-- Hashes that are taken
-- ════════════════════════════════════════════════════════════════════════

/-- The registry has one entry for each of the hashes, and no other. -/
structure Taken (registry : Registry) (hashes : Finset UInt32) : Prop where
  contains_iff : ∀ hash, registry.contains hash = true ↔ hash ∈ hashes
  size_eq : registry.size = hashes.card

theorem taken_empty : Taken empty ∅ where
  contains_iff hash := by
    rw [contains, empty, Std.HashMap.contains_empty]
    simp only [Bool.false_eq_true, Finset.notMem_empty]
  size_eq := rfl

theorem Taken.after {hashes : Finset UInt32} (h : registry.Taken hashes) (request : Request) :
    (registry.after request).Taken (insert request.hash hashes) := by
  cases htaken : registry.contains request.hash with
  | true =>
    rw [after_of_taken htaken, Finset.insert_eq_of_mem ((h.contains_iff _).1 htaken)]
    exact h
  | false =>
    have hfresh : request.hash ∉ hashes := by
      rw [← h.contains_iff, htaken]
      decide
    rw [after_of_free htaken]
    refine ⟨fun hash => ?_, ?_⟩
    · rw [Finset.mem_insert, ← h.contains_iff, contains, Std.HashMap.contains_insert,
        Bool.or_eq_true, beq_iff_eq, eq_comm]
      rfl
    · rw [Finset.card_insert_of_notMem hfresh, ← h.size_eq, size, Std.HashMap.size_insert,
        if_neg (fun hmem => ?_)]
      · rfl
      · rw [← Std.HashMap.contains_iff_mem] at hmem
        rw [contains, hmem] at htaken
        cases htaken

/-- The hashes that are taken after a sequence of requests are those from before and those of the
requests. -/
theorem Taken.foldl_after {hashes : Finset UInt32} (h : registry.Taken hashes)
    (requests : List Request) :
    (requests.foldl Registry.after registry).Taken
      (hashes ∪ (requests.map Request.hash).toFinset) := by
  induction requests generalizing registry hashes with
  | nil =>
    rw [List.map_nil, List.toFinset_nil, Finset.union_empty]
    exact h
  | cons request requests ih =>
    rw [List.map_cons, List.toFinset_cons, Finset.union_insert, ← Finset.insert_union]
    exact ih (h.after request)

theorem size_ofRequests (requests : List Request) :
    (ofRequests requests).size = (requests.map Request.hash).toFinset.card := by
  have htaken := taken_empty.foldl_after requests
  rw [Finset.empty_union] at htaken
  exact htaken.size_eq

-- ════════════════════════════════════════════════════════════════════════
-- Builtins
-- ════════════════════════════════════════════════════════════════════════

/-- Registries that give the same answers to all questions by hash, and have the same size. -/
structure SameAnswers (registry other : Registry) : Prop where
  contains : ∀ hash, registry.contains hash = other.contains hash
  name? : ∀ hash, registry.name? hash = other.name? hash
  handler? : ∀ hash, registry.handler? hash = other.handler? hash
  dispatch : ∀ hash arguments context,
    registry.dispatch hash arguments context = other.dispatch hash arguments context
  size : registry.size = other.size

theorem SameAnswers.of_entries {other : Registry}
    (hentries : ∀ hash : UInt32, registry.entries[hash]? = other.entries[hash]?)
    (hsize : registry.size = other.size) : registry.SameAnswers other := by
  have hhandler (hash : UInt32) : registry.handler? hash = other.handler? hash := by
    rw [Registry.handler?, Registry.handler?, hentries]
  refine ⟨fun hash => ?_, fun hash => ?_, hhandler, fun hash arguments context => ?_, hsize⟩
  · rw [Registry.contains, Registry.contains, Std.HashMap.contains_eq_isSome_getElem?,
      Std.HashMap.contains_eq_isSome_getElem?, hentries]
  · rw [Registry.name?, Registry.name?, hentries]
  · rw [Registry.dispatch, Registry.dispatch, hhandler]

/-- Builtins whose hashes are free and different are entered without being looked up. -/
theorem foldl_after_builtin {calls : List Builtin} (hnodup : (calls.map Builtin.hash).Nodup)
    (hfree : ∀ call ∈ calls, registry.contains call.hash = false) :
    (calls.map Request.builtin).foldl after registry =
      { entries := calls.foldl (fun entries call =>
          entries.insert call.hash { name := call.name, handler := call.invoke })
          registry.entries } := by
  induction calls generalizing registry with
  | nil => rfl
  | cons call calls ih =>
    rw [List.map_cons, List.nodup_cons] at hnodup
    obtain ⟨hfresh, hrest⟩ := hnodup
    have hfirst : registry.contains (Request.builtin call).hash = false :=
      hfree call (List.mem_cons_self ..)
    rw [List.map_cons, List.foldl_cons, after_of_free hfirst, List.foldl_cons]
    refine ih hrest fun other hother => ?_
    have hne : call.hash ≠ other.hash := by
      intro heq
      apply hfresh
      rw [heq]
      exact List.mem_map_of_mem hother
    have hold := hfree other (List.mem_cons_of_mem call hother)
    rw [contains, Std.HashMap.contains_insert, Bool.or_eq_false_iff]
    exact ⟨beq_eq_false_iff_ne.2 hne, hold⟩

/-- The registry of the builtins is the one that requests for them lead to. -/
theorem withBuiltins_eq : withBuiltins = ofRequests (Builtin.all.map .builtin) := by
  rw [ofRequests, foldl_after_builtin Builtin.nodup_hashes]
  · rfl
  · intro call _
    exact Std.HashMap.contains_empty

/-- In whatever order the builtins are requested, no two of the requests have the same hash. -/
theorem nodup_requests {order : List Builtin} (hperm : order.Perm Builtin.all) :
    ((order.map Request.builtin).map Request.hash).Nodup := by
  rw [List.map_map]
  exact (hperm.map Builtin.hash).nodup_iff.2 Builtin.nodup_hashes

/-- In whatever order the builtins are requested, the answers are those of their registry. -/
theorem sameAnswers_withBuiltins {order : List Builtin} (hperm : order.Perm Builtin.all) :
    withBuiltins.SameAnswers (ofRequests (order.map .builtin)) := by
  have hrequests : (Builtin.all.map Request.builtin).Perm (order.map Request.builtin) :=
    (hperm.map Request.builtin).symm
  rw [withBuiltins_eq]
  refine .of_entries (fun hash => ?_) ?_
  · rw [getElem?_ofRequests, getElem?_ofRequests,
      Request.first?_perm (nodup_requests (.refl _)) hrequests]
  · rw [size_ofRequests, size_ofRequests, List.toFinset_eq_of_perm _ _ (hrequests.map Request.hash)]

/-- None of the builtins is refused, in whatever order they are requested. -/
theorem registerBuiltin_ofRequests {earlier later : List Builtin} {call : Builtin}
    (hperm : (earlier ++ call :: later).Perm Builtin.all) :
    (ofRequests (earlier.map .builtin)).registerBuiltin call =
      .ok (call.hash, ofRequests ((earlier ++ [call]).map .builtin)) := by
  have hnodup := nodup_requests hperm
  rw [List.map_append, List.map_append, List.nodup_append] at hnodup
  have hfree : ∀ request ∈ earlier.map Request.builtin,
      request.hash ≠ (Request.builtin call).hash := by
    intro request hrequest
    exact hnodup.2.2 _ (List.mem_map_of_mem hrequest) _ (List.mem_cons_self ..)
  have hsubmit := submit_ofRequests hfree
  rw [List.map_append]
  exact hsubmit

-- ════════════════════════════════════════════════════════════════════════
-- Answers
-- ════════════════════════════════════════════════════════════════════════

/-- The context after a call. If nothing is registered under the hash, it is what it was. -/
def contextAfter (registry : Registry) (hash : UInt32) (arguments : Arguments)
    (context : Context) : Context :=
  match registry.dispatch hash arguments context with
  | none => context
  | some result => Syscall.contextOf result

/-- What a registry answers after a sequence of requests: the first request of a hash stays. -/
structure FirstWins (requests : List Request) : Prop where
  refused_iff : ∀ request : Request,
    request.submit (ofRequests requests) =
        .error { name := request.registration.name, hash := request.hash } ↔
      ∃ earlier ∈ requests, earlier.hash = request.hash
  granted_iff : ∀ request : Request,
    request.submit (ofRequests requests) =
        .ok (request.hash, ofRequests (requests ++ [request])) ↔
      ∀ earlier ∈ requests, earlier.hash ≠ request.hash
  unchanged : ∀ request : Request, (∃ earlier ∈ requests, earlier.hash = request.hash) →
    ofRequests (requests ++ [request]) = ofRequests requests
  contains : ∀ hash, (ofRequests requests).contains hash = (Request.first? requests hash).isSome
  name? : ∀ hash,
    (ofRequests requests).name? hash = (Request.first? requests hash).map (·.registration.name)
  handler? : ∀ hash,
    (ofRequests requests).handler? hash =
      (Request.first? requests hash).map (·.registration.handler)
  dispatch : ∀ hash arguments context,
    (ofRequests requests).dispatch hash arguments context =
      (Request.first? requests hash).map fun request =>
        request.registration.handler arguments context
  /-- Where nothing is registered, a call has no result and no effect. -/
  dispatch_none : ∀ hash, (∀ request ∈ requests, request.hash ≠ hash) →
    ∀ arguments context, (ofRequests requests).dispatch hash arguments context = none ∧
      (ofRequests requests).contextAfter hash arguments context = context
  /-- There are as many entries as there are different hashes. -/
  size : (ofRequests requests).size = (requests.map Request.hash).toFinset.card

theorem handler?_ofRequests (requests : List Request) (hash : UInt32) :
    (ofRequests requests).handler? hash =
      (Request.first? requests hash).map (·.registration.handler) := by
  rw [handler?, getElem?_ofRequests, Option.map_map]
  rfl

theorem dispatch_ofRequests (requests : List Request) (hash : UInt32) (arguments : Arguments)
    (context : Context) :
    (ofRequests requests).dispatch hash arguments context =
      (Request.first? requests hash).map fun request =>
        request.registration.handler arguments context := by
  rw [dispatch, handler?_ofRequests]
  cases Request.first? requests hash <;> rfl

theorem firstWins (requests : List Request) : FirstWins requests where
  refused_iff request := by
    rw [← contains_ofRequests_iff, request.submit_eq]
    split
    · next htaken => exact iff_of_true rfl htaken
    · next hfree => exact iff_of_false nofun hfree
  granted_iff request := by
    refine ⟨fun h earlier hearlier heq => ?_, submit_ofRequests⟩
    rw [request.submit_eq, if_pos (contains_ofRequests_iff.2 ⟨earlier, hearlier, heq⟩)] at h
    cases h
  unchanged request h := by
    have htaken : (ofRequests requests).contains request.hash = true :=
      contains_ofRequests_iff.2 h
    rw [ofRequests, List.foldl_append]
    exact after_of_taken htaken
  contains := contains_ofRequests requests
  name? hash := by
    rw [Registry.name?, getElem?_ofRequests, Option.map_map]
    rfl
  handler? := handler?_ofRequests requests
  dispatch := dispatch_ofRequests requests
  dispatch_none hash h arguments context := by
    have hfirst : Request.first? requests hash = none := by
      rw [← Option.isNone_iff_eq_none, ← Option.isSome_eq_false_iff, Bool.eq_false_iff, Ne,
        Request.isSome_first?_iff]
      rintro ⟨request, hmem, heq⟩
      exact h request hmem heq
    have hnone : (ofRequests requests).dispatch hash arguments context = none := by
      rw [dispatch_ofRequests, hfirst, Option.map_none]
    refine ⟨hnone, ?_⟩
    rw [contextAfter, hnone]
  size := size_ofRequests requests

/-- The first request of a hash stays, and no later one changes what is there. The builtins can be
requested in any order, none of them is refused, and the answers are those of their registry. -/
theorem firstRequestWins :
    (∀ requests, FirstWins requests) ∧
    ∀ order : List Builtin, order.Perm Builtin.all →
      (∀ earlier call later, order = earlier ++ call :: later →
        (ofRequests (earlier.map .builtin)).registerBuiltin call =
          .ok (call.hash, ofRequests ((earlier ++ [call]).map .builtin))) ∧
      withBuiltins.SameAnswers (ofRequests (order.map .builtin)) := by
  refine ⟨firstWins, fun order hperm => ⟨?_, sameAnswers_withBuiltins hperm⟩⟩
  rintro earlier call later rfl
  exact registerBuiltin_ofRequests hperm

/-- A system call of the host under the name of a builtin comes too late if it comes second, and
the builtins in reverse order make up the same registry. -/
theorem firstRequestWins_abortTwice :
    (Request.host "abort" fun _ => pure 0).submit (ofRequests [.builtin .abort]) =
        .error { name := "abort", hash := 0xb6fc1a11 } ∧
      withBuiltins.SameAnswers (ofRequests (Builtin.all.reverse.map .builtin)) := by
  have hhash : CallHash.ofName "abort" = 0xb6fc1a11 := by decide +kernel
  have hrefused := ((firstRequestWins.1 [.builtin .abort]).refused_iff
    (.host "abort" fun _ => pure 0)).2 ⟨.builtin .abort, List.mem_cons_self .., rfl⟩
  refine ⟨?_, (firstRequestWins.2 _ (List.reverse_perm _)).2⟩
  rw [← hhash]
  exact hrefused

end Registry

end SbfMachine
