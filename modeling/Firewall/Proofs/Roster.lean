import Firewall.Proofs.Origins

/-!
The registry as it is kept: the names stand in a list of their own, both lists are added to one
after the other, and what was changed before a refusal stays changed. Whatever is asked of it, in
any order, it stays the registry that the operations on whole registries make, and a refused
operation leaves it as it was.
-/

namespace Firewall

/-! ### Names in the order of their first occurrence -/

/-- `ys` are the items of `xs`, each once, in the order in which they occur first. -/
structure OccurInOrder {α : Type} [BEq α] (xs ys : List α) : Prop where
  nodup : ys.Nodup
  mem_iff : ∀ x, x ∈ ys ↔ x ∈ xs
  order : ys.Pairwise fun x y => xs.idxOf x < xs.idxOf y

section

variable {α : Type} [BEq α]

theorem firstOccurrences_concat (xs : List α) (x : α) : firstOccurrences (xs ++ [x]) =
    if (firstOccurrences xs).contains x then firstOccurrences xs
    else firstOccurrences xs ++ [x] := by
  rw [firstOccurrences, List.foldl_concat, ← firstOccurrences]

theorem occurInOrder_firstOccurrences [LawfulBEq α] (xs : List α) :
    OccurInOrder xs (firstOccurrences xs) := by
  induction xs using List.reverseRecOn with
  | nil => exact ⟨.nil, by simp [firstOccurrences], .nil⟩
  | append_singleton xs x ih =>
      have mem_iff (y : α) : y ∈ firstOccurrences (xs ++ [x]) ↔ y ∈ xs ++ [x] :=
        mem_firstOccurrences
      have place : ∀ y ∈ firstOccurrences xs, (xs ++ [x]).idxOf y = xs.idxOf y := fun y hy =>
        List.idxOf_append_of_mem (mem_firstOccurrences.mp hy)
      have order : (firstOccurrences xs).Pairwise fun y z =>
          (xs ++ [x]).idxOf y < (xs ++ [x]).idxOf z :=
        ih.order.imp_of_mem fun hy hz less => by rwa [place _ hy, place _ hz]
      rw [firstOccurrences_concat] at mem_iff ⊢
      by_cases known : x ∈ xs
      · rw [if_pos (by simpa using mem_firstOccurrences.mpr known)] at mem_iff ⊢
        exact ⟨ih.nodup, mem_iff, order⟩
      · have new : x ∉ firstOccurrences xs := fun hx => known (mem_firstOccurrences.mp hx)
        rw [if_neg (by simpa using new)] at mem_iff ⊢
        refine ⟨?_, mem_iff, ?_⟩
        · exact List.nodup_append.mpr ⟨ih.nodup, List.nodup_singleton x, by grind⟩
        · refine List.pairwise_append.mpr ⟨order, List.pairwise_singleton _ x, ?_⟩
          intro y hy z hz
          obtain rfl := List.mem_singleton.mp hz
          -- What occurs for the first time stands behind all that occurred before.
          rw [place y hy, List.idxOf_append_of_notMem known]
          have := List.idxOf_lt_length_of_mem (mem_firstOccurrences.mp hy)
          omega

end

/-! ### The two lists -/

structure Roster where
  interfaces : List Interface := []
  names : List String := []
  frozen : Bool := false
deriving DecidableEq

namespace Roster

inductive Refusal
  | registry (fault : RegistryFault)
  | malformed (cause : Malformed)
  /-- There is no interface at the place that was asked for. -/
  | noInterface

abbrev Action := ExceptT Refusal (StateM Roster)

/-- What an action answers, and the roster that it leaves, also where it is refused. -/
def outcome {α : Type} (a : Action α) (b : Roster) : Except Refusal α × Roster := (a.run.run b).run

/-- The registry with the interfaces of a roster. -/
def registry (b : Roster) : Registry := { interfaces := b.interfaces, frozen := b.frozen }

/-- A registry with its names written down. -/
def of (r : Registry) : Roster := ⟨r.interfaces, r.names, r.frozen⟩

def register (i : Interface) : Action Nat := do
  if (← get).frozen then throw (.registry .frozen)
  let index := (← get).interfaces.length
  if maxInterfaces ≤ index then throw (.registry .tooMany)
  modify fun b => { b with interfaces := b.interfaces ++ [{ i with index }] }
  if !(← get).names.contains i.name then
    modify fun b => { b with names := b.names ++ [i.name] }
  return index

/-- A roster of its own, with the interfaces that tokens declare. -/
def declared (tokens : List String) : Except Refusal Roster :=
  match Registry.parseAll tokens with
  | .error cause => .error (.malformed cause)
  | .ok is =>
    match outcome (forM is fun i => do let _ ← register i) {} with
    | (.ok _, b) => .ok { b with frozen := true }
    | (.error _, _) => .error (.malformed (.tooManyInterfaces maxInterfaces))

inductive Operation
  | register (i : Interface)
  /-- Registers the interface at a place once more. -/
  | registerAgain (place : Int)
  | freeze
  /-- Makes another registry, which takes the place of this one. -/
  | declare (tokens : List String)

def perform : Operation → Action Unit
  | .register i => do let _ ← register i
  | .registerAgain place => do
    match (← get).registry.get? place with
    | none => throw .noInterface
    | some i => let _ ← register i
  | .freeze => modify ({ · with frozen := true })
  | .declare tokens =>
    match declared tokens with
    | .error refusal => throw refusal
    | .ok b => set b

/-- The roster behind an operation, whatever its answer was. -/
def after (b : Roster) (op : Operation) : Roster := (outcome (perform op) b).2

/-- The operation on a whole registry. -/
def Operation.on (r : Registry) : Operation → Except Refusal Registry
  | .register i => (r.register i).mapError .registry
  | .registerAgain place =>
    match r.get? place with
    | none => .error .noInterface
    | some i => (r.register i).mapError .registry
  | .freeze => .ok r.freeze
  | .declare tokens => (Registry.ofTokens tokens).2.mapError .malformed

/-! ### Actions, one command after the other -/

section

variable {α β : Type} {b : Roster}

@[simp] theorem outcome_pure (x : α) : outcome (pure x) b = (.ok x, b) := rfl

@[simp] theorem outcome_throw (refusal : Refusal) :
    outcome (throw refusal : Action α) b = (.error refusal, b) := rfl

@[simp] theorem outcome_get : outcome get b = (.ok b, b) := rfl

@[simp] theorem outcome_modify (f : Roster → Roster) : outcome (modify f) b = (.ok ⟨⟩, f b) := rfl

@[simp] theorem outcome_set (c : Roster) : outcome (set c) b = (.ok ⟨⟩, c) := rfl

@[simp] theorem outcome_bind (a : Action α) (f : α → Action β) :
    outcome (a >>= f) b = match outcome a b with
      | (.ok x, c) => outcome (f x) c
      | (.error refusal, c) => (.error refusal, c) := by
  change (ExceptT.bindCont f (outcome a b).1).run (outcome a b).2 = _
  cases outcome a b with
  | mk answer c => cases answer <;> rfl

@[simp] theorem outcome_map (a : Action α) (f : α → β) :
    outcome (f <$> a) b = match outcome a b with
      | (.ok x, c) => (.ok (f x), c)
      | (.error refusal, c) => (.error refusal, c) := by
  rw [← bind_pure_comp, outcome_bind]
  rfl

end

/-! ### A roster and its registry -/

variable {b : Roster} {r r' : Registry} {is : List Interface} {tokens : List String}

theorem names_concat (r : Registry) (i : Interface) :
    ({ r with interfaces := r.interfaces ++ [i] } : Registry).names =
      if r.names.contains i.name then r.names else r.names ++ [i.name] := by
  rw [Registry.names, List.map_append, List.map_singleton, firstOccurrences_concat,
    ← Registry.names]

theorem outcome_register_eq (i : Interface) (b : Roster) : outcome (register i) b =
    if b.frozen then (.error (.registry .frozen), b)
    else if maxInterfaces ≤ b.interfaces.length then (.error (.registry .tooMany), b)
    else (.ok b.interfaces.length,
      { b with
        interfaces := b.interfaces ++ [{ i with index := b.interfaces.length }]
        names := if b.names.contains i.name then b.names else b.names ++ [i.name] }) := by
  unfold register
  by_cases frozen : b.frozen
  · simp [frozen]
  · by_cases full : maxInterfaces ≤ b.interfaces.length
    · simp [frozen, full]
    · by_cases known : i.name ∈ b.names <;> simp [frozen, full, known]

/-- The names that are added one by one are those of the registry. -/
theorem outcome_register (r : Registry) (i : Interface) :
    outcome (register i) (of r) = match r.register i with
      | .error fault => (.error (.registry fault), of r)
      | .ok r' => (.ok r.size, of r') := by
  rw [outcome_register_eq, Registry.register]
  by_cases frozen : r.frozen = true
  · rw [if_pos (show (of r).frozen = true from frozen), if_pos frozen]
  · rw [if_neg (show ¬ (of r).frozen = true from frozen), if_neg frozen]
    by_cases full : maxInterfaces ≤ r.size
    · rw [if_pos (show maxInterfaces ≤ (of r).interfaces.length from full), if_pos full]
    · rw [if_neg (show ¬ maxInterfaces ≤ (of r).interfaces.length from full), if_neg full]
      have names := names_concat r { i with index := r.size }
      exact congrArg (fun names => (Except.ok r.size, Roster.mk _ names r.frozen)) names.symm

theorem outcome_forM_register (is : List Interface) (r : Registry) :
    match (r.registerAll is).2 with
      | .ok r' => outcome (forM is fun i => do let _ ← register i) (of r) = (.ok ⟨⟩, of r')
      | .error cause => cause = .tooManyInterfaces maxInterfaces ∧ ∃ refusal b,
          outcome (forM is fun i => do let _ ← register i) (of r) = (.error refusal, b) := by
  induction is generalizing r with
  | nil => rfl
  | cons i rest ih =>
      have entered := outcome_register r i
      rw [Registry.registerAll]
      cases registered : r.register i with
      | error fault =>
          rw [registered] at entered
          simp [List.forM_cons, entered]
      | ok next =>
          rw [registered] at entered
          specialize ih next
          simp only [List.forM_cons, outcome_bind, entered]
          exact ih

theorem declared_eq (tokens : List String) : declared tokens =
    ((Registry.ofTokens tokens).2.mapError .malformed).map of := by
  unfold declared Registry.ofTokens
  cases Registry.parseAll tokens with
  | error cause => rfl
  | ok is =>
      have entered := outcome_forM_register is {}
      have empty : (of {} : Roster) = {} := rfl
      rw [empty] at entered
      cases registered : (Registry.registerAll {} is).2 with
      | error cause =>
          rw [registered] at entered
          obtain ⟨rfl, refusal, b, entered⟩ := entered
          simp only [registered, entered, Except.map, Except.mapError]
      | ok r =>
          rw [registered] at entered
          simp only [registered, entered, Except.map, Except.mapError]
          rfl

/-- An operation does to the two lists what it does to the registry, and nothing where it is
refused. -/
theorem outcome_perform (r : Registry) (op : Operation) :
    outcome (perform op) (of r) = match op.on r with
      | .error refusal => (.error refusal, of r)
      | .ok r' => (.ok ⟨⟩, of r') := by
  cases op with
  | register i =>
      simp only [perform, outcome_bind, outcome_register, Operation.on]
      cases r.register i <;> rfl
  | registerAgain place =>
      have same : (of r).registry = r := rfl
      simp only [perform, outcome_bind, outcome_get, same, Operation.on]
      cases r.get? place with
      | none => rfl
      | some i =>
          simp only [outcome_bind, outcome_register]
          cases r.register i <;> rfl
  | freeze => rfl
  | declare tokens =>
      simp only [perform, declared_eq, Operation.on]
      cases (Registry.ofTokens tokens).2 <;> rfl

theorem mapError_eq_ok_iff {ε ε' α : Type} {x : Except ε α} {f : ε → ε'} {a : α} :
    x.mapError f = .ok a ↔ x = .ok a := by
  cases x <;> simp [Except.mapError]

theorem indexed_on {op : Operation} (h : r.Indexed) (done : op.on r = .ok r') : r'.Indexed := by
  cases op with
  | register i => exact h.register i (mapError_eq_ok_iff.mp done)
  | registerAgain place =>
      simp only [Operation.on] at done
      split at done
      · cases done
      · exact h.register _ (mapError_eq_ok_iff.mp done)
  | freeze =>
      cases done
      exact h.freeze
  | declare tokens => exact Registry.indexed_of_declared (mapError_eq_ok_iff.mp done)

theorem exists_after (h : r.Indexed) (op : Operation) :
    ∃ r' : Registry, r'.Indexed ∧ after (of r) op = of r' := by
  rw [after, outcome_perform]
  cases done : op.on r with
  | error refusal => exact ⟨r, h, rfl⟩
  | ok r' => exact ⟨r', indexed_on h done, rfl⟩

/-- Behind any operations stands the roster of a registry with its indices in order. -/
theorem exists_registry (ops : List Operation) :
    ∃ r : Registry, r.Indexed ∧ ops.foldl after {} = of r := by
  induction ops using List.reverseRecOn with
  | nil => exact ⟨{}, Registry.indexed_empty, rfl⟩
  | append_singleton ops op ih =>
      obtain ⟨r, indexed, run⟩ := ih
      rw [List.foldl_concat, run]
      exact exists_after indexed op

theorem on_of_frozen {op : Operation} (frozen : r.frozen = true)
    (own : ∀ tokens, op ≠ .declare tokens) (done : op.on r = .ok r') : r' = r := by
  cases op with
  | register i => simp [Operation.on, Registry.register_frozen frozen, Except.mapError] at done
  | registerAgain place =>
      simp only [Operation.on, Registry.register_frozen frozen, Except.mapError] at done
      split at done <;> cases done
  | freeze =>
      cases done
      rw [Registry.freeze, ← frozen]
  | declare tokens => exact absurd rfl (own tokens)

theorem exists_parseAll_iff : (∃ is, Registry.parseAll tokens = .ok is) ↔
    ∀ token ∈ tokens, ∃ i, Interface.parse token = .ok i := by
  simp only [Registry.parseAll_eq_ok_iff]
  induction tokens with
  | nil => simp
  | cons token rest ih =>
      rw [List.forall_mem_cons, ← ih]
      constructor
      · rintro ⟨_, related⟩
        obtain ⟨i, is, here, later, -⟩ := List.forall₂_cons_left_iff.mp related
        exact ⟨⟨i, here⟩, ⟨is, later⟩⟩
      · rintro ⟨⟨i, here⟩, ⟨is, later⟩⟩
        exact ⟨i :: is, .cons here later⟩

/-- Tokens are declared exactly when each of them can be read and there are not too many. -/
theorem exists_declared_iff (tokens : List String) :
    (∃ r, (Registry.ofTokens tokens).2 = .ok r) ↔
      (∀ token ∈ tokens, ∃ i, Interface.parse token = .ok i) ∧
        tokens.length ≤ maxInterfaces := by
  rw [← exists_parseAll_iff]
  constructor
  · rintro ⟨r, declared⟩
    obtain ⟨is, parsed, fits, -⟩ := Registry.declared_iff_parseAll.mp declared
    have length := (Registry.parseAll_eq_ok_iff.mp parsed).length_eq
    exact ⟨⟨is, parsed⟩, by omega⟩
  · rintro ⟨⟨is, parsed⟩, fits⟩
    have length := (Registry.parseAll_eq_ok_iff.mp parsed).length_eq
    exact ⟨_, Registry.declared_iff_parseAll.mpr ⟨is, parsed, by omega, rfl⟩⟩

/-- Whatever is asked of a registry, the interface at a place has the place as its index, there are
at most ten, and the names, of all interfaces or of those of a kind, stand each once in the order of
their first occurrence. An operation does what it does to the registry as a whole or is refused,
and then changes nothing. None changes a frozen registry, though a declaration puts another one in
its place; and tokens are declared exactly when each of them can be read and there are at most
ten. -/
theorem consistent_run (ops : List Operation) :
    let b := ops.foldl after {}
    (∀ (k : Nat) (i : Interface), b.interfaces[k]? = some i → i.index = k) ∧
      b.interfaces.length ≤ 10 ∧
      OccurInOrder (b.interfaces.map (·.name)) b.names ∧
      (∀ p, OccurInOrder ((b.interfaces.filter p).map (·.name)) (b.registry.namesWhere p)) ∧
      (∀ op, outcome (perform op) b = match op.on b.registry with
        | .error refusal => (.error refusal, b)
        | .ok r => (.ok ⟨⟩, of r)) ∧
      (∀ op refusal, (outcome (perform op) b).1 = .error refusal → after b op = b) ∧
      (∀ op, b.frozen = true → (∀ tokens, op ≠ .declare tokens) → after b op = b) ∧
      ∀ tokens, (∃ c, outcome (perform (.declare tokens)) b = (.ok ⟨⟩, c)) ↔
        (∀ token ∈ tokens, ∃ i, Interface.parse token = .ok i) ∧ tokens.length ≤ 10 := by
  intro b
  obtain ⟨r, indexed, run⟩ := exists_registry ops
  have run : b = of r := run
  rw [run]
  refine ⟨fun k i => indexed.index_eq, indexed.size_le, occurInOrder_firstOccurrences _,
    fun p => occurInOrder_firstOccurrences _, outcome_perform r, fun op refusal refused => ?_,
    fun op frozen own => ?_, fun tokens => ?_⟩
  · rw [outcome_perform] at refused
    rw [after, outcome_perform]
    cases done : op.on r with
    | error _ => rfl
    | ok r' => simp [done] at refused
  · rw [after, outcome_perform]
    cases done : op.on r with
    | error _ => rfl
    | ok r' => rw [on_of_frozen frozen own done]
  · have declared := exists_declared_iff tokens
    rw [maxInterfaces] at declared
    rw [← declared, outcome_perform, Operation.on]
    cases (Registry.ofTokens tokens).2 <;> simp [Except.mapError]

/-- An interface with an index of its own, the same once more, three operations that are refused,
and the end of registration. -/
def closing : List Operation :=
  [.register { name := "en1", index := 7 }, .registerAgain (-1), .registerAgain 2,
    .declare ["en0", "+mac"], .declare ["en2\x7b1,\x7d"], .freeze]

theorem consistent_run_closing :
    closing.foldl after {} =
        { interfaces := [{ name := "en1", index := 0 }, { name := "en1", index := 1 }]
          names := ["en1"]
          frozen := true } ∧
      (∀ i, after (closing.foldl after {}) (.register i) = closing.foldl after {}) ∧
      ∃ b, outcome (perform (.declare ["en0", "en0:10.0.0.0/24"])) (closing.foldl after {}) =
        (.ok ⟨⟩, b) := by
  obtain ⟨-, -, -, -, -, -, frozen, declared⟩ := consistent_run closing
  refine ⟨by rfl, fun i => frozen _ rfl (by simp), (declared _).mpr ⟨?_, by decide⟩⟩
  intro token listed
  rcases List.mem_cons.mp listed with rfl | listed
  · exact ⟨_, rfl⟩
  · obtain rfl := List.mem_singleton.mp listed
    exact ⟨_, rfl⟩

end Roster
end Firewall
