import DoubleRatchet.Key
import DoubleRatchet.Store.Device

/-! What a computation yields apart from its log. The result of every operation of the library and what it leaves
in the stores are functions of the stores and of the randomness alone; `Yields` states such a function for a
computation, and is composed along its binds. -/
namespace DoubleRatchet

variable {σ τ A B : Type} {view : σ → τ}

/-- A chain of parts succeeds when each part does. -/
theorem bind_eq_ok {x : Except Fault A} {f : A → Except Fault B} {b : B} :
    x >>= f = .ok b ↔ ∃ a, x = .ok a ∧ f a = .ok b := by
  constructor
  · intro run
    cases x with
    | error fault => cases run
    | ok a => exact ⟨a, rfl, run⟩
  · rintro ⟨a, rfl, run⟩
    exact run

theorem bind_eq_error {x : Except Fault A} {f : A → Except Fault B} {fault : Fault} :
    x >>= f = .error fault ↔ x = .error fault ∨ ∃ a, x = .ok a ∧ f a = .error fault := by
  cases x with
  | error other => simp [bind, Except.bind]
  | ok a => simp [bind, Except.bind]

theorem bind_apply (x : ExceptT Fault (StateM σ) A) (f : A → ExceptT Fault (StateM σ) B) (s : σ) :
    (x >>= f) s = match x s with
      | (.ok a, s') => f a s'
      | (.error fault, s') => (.error fault, s') := by
  change (match x s with | (r, s') => ExceptT.bindCont f r s') = _
  rcases x s with ⟨_ | _, _⟩ <;> rfl

theorem tryCatch_apply (x : ExceptT Fault (StateM σ) A) (handle : Fault → ExceptT Fault (StateM σ) A) (s : σ) :
    (tryCatch x handle) s = match x s with
      | (.ok a, s') => (.ok a, s')
      | (.error fault, s') => handle fault s' := by
  rcases run : x s with ⟨_ | _, _⟩
  · simp [tryCatch, tryCatchThe, MonadExceptOf.tryCatch, ExceptT.tryCatch, ExceptT.mk, Bind.bind, StateT.bind, run]
  · simp [tryCatch, tryCatchThe, MonadExceptOf.tryCatch, ExceptT.tryCatch, ExceptT.mk, Bind.bind, StateT.bind, run]
    rfl

theorem observe_apply (x : ExceptT Fault (StateM σ) A) (s : σ) :
    observe x s = (.ok (x s).1, (x s).2) := by
  unfold observe
  rw [tryCatch_apply, bind_apply]
  rcases x s with ⟨_ | _, _⟩ <;> rfl

/-- The result of a computation, and what it does to the part of the state that `view` shows, whatever the rest of
the state holds. -/
def Yields (view : σ → τ) (x : ExceptT Fault (StateM σ) A) (before : τ) (result : Except Fault A)
    (after : τ) : Prop :=
  ∀ s, view s = before → ∃ s', x s = (result, s') ∧ view s' = after

namespace Yields

variable {x : ExceptT Fault (StateM σ) A} {f : A → ExceptT Fault (StateM σ) B} {t t' t'' : τ}

theorem pure (a : A) (t : τ) : Yields view (Pure.pure a) t (.ok a) t :=
  fun s shown => ⟨s, rfl, shown⟩

theorem throw (fault : Fault) (t : τ) :
    Yields view (MonadExcept.throw fault : ExceptT Fault (StateM σ) A) t (.error fault) t :=
  fun s shown => ⟨s, rfl, shown⟩

theorem lift (result : Except Fault A) (t : τ) :
    Yields view (liftM result : ExceptT Fault (StateM σ) A) t result t :=
  fun s shown => ⟨s, rfl, shown⟩

theorem bind {a : A} {r : Except Fault B} (first : Yields view x t (.ok a) t')
    (second : Yields view (f a) t' r t'') : Yields view (x >>= f) t r t'' := by
  intro s shown
  obtain ⟨s', run, shown'⟩ := first s shown
  obtain ⟨s'', run', shown''⟩ := second s' shown'
  refine ⟨s'', ?_, shown''⟩
  rw [bind_apply, run]
  exact run'

theorem bind_error {fault : Fault} (first : Yields view x t (.error fault) t') :
    Yields view (x >>= f) t (.error fault) t' := by
  intro s shown
  obtain ⟨s', run, shown'⟩ := first s shown
  refine ⟨s', ?_, shown'⟩
  rw [bind_apply, run]

theorem bind_same {x' : Except Fault A} {f' : A → Except Fault B} (first : Yields view x t x' t)
    (second : ∀ a, Yields view (f a) t (f' a) t) : Yields view (x >>= f) t (x' >>= f') t := by
  cases x' with
  | error fault => exact bind_error first
  | ok a => exact bind first (second a)

theorem observe {r : Except Fault A} (inner : Yields view x t r t') :
    Yields view (DoubleRatchet.observe x) t (.ok r) t' := by
  intro s shown
  obtain ⟨s', run, shown'⟩ := inner s shown
  refine ⟨s', ?_, shown'⟩
  rw [observe_apply, run]

theorem of_run {r r' : Except Fault A} {s s' : σ} (yields : Yields view x (view s) r t) (run : x s = (r', s')) :
    r' = r ∧ view s' = t := by
  obtain ⟨s'', run', shown⟩ := yields s rfl
  rw [run] at run'
  cases run'
  exact ⟨rfl, shown⟩

end Yields

/-- A computation that does all that its result says, or fails and leaves the state as `failed`. -/
def Commits {C : Type} (view : σ → τ) (x : ExceptT Fault (StateM σ) A) (before failed : τ) (result : Except Fault C)
    (value : C → A) (after : C → τ) : Prop :=
  match result with
  | .ok c => Yields view x before (.ok (value c)) (after c)
  | .error fault => Yields view x before (.error fault) failed

theorem Commits.bind_ok {C : Type} {x : ExceptT Fault (StateM σ) A} {f : A → ExceptT Fault (StateM σ) B} {t t' failed : τ}
    {a : A} {result : Except Fault C} {value : C → B} {after : C → τ} (first : Yields view x t (.ok a) t')
    (second : Commits view (f a) t' failed result value after) : Commits view (x >>= f) t failed result value after := by
  cases result with
  | error fault => exact Yields.bind first second
  | ok c => exact Yields.bind first second

theorem Commits.bind {C : Type} {x : ExceptT Fault (StateM σ) A} {f : A → ExceptT Fault (StateM σ) B} {t t' : τ}
    {x' : Except Fault A} {f' : A → Except Fault C} {value : C → B} {after : C → τ} (first : Yields view x t x' t')
    (second : ∀ a, Commits view (f a) t' t' (f' a) value after) :
    Commits view (x >>= f) t t' (x' >>= f') value after := by
  cases x' with
  | error fault => exact first.bind_error
  | ok a => exact .bind_ok first (second a)

/-! ## Stores -/

theorem insert_stored {K V : Type} [Ord K] [Std.TransOrd K] [Std.LawfulEqOrd K] {map : Std.ExtTreeMap K V} {key : K} {value : V}
    (stored : map[key]? = some value) : map.insert key value = map := by
  apply Std.ExtTreeMap.ext_getElem?
  intro other
  rw [Std.ExtTreeMap.getElem?_insert]
  split
  · rename_i same
    rw [← Std.LawfulEqCmp.compare_eq_iff_eq.mp same, stored]
  · rfl

/-! ## Randomness -/

namespace Entropy

/-- The stream from where `n` more key pairs have been drawn. -/
def skip (e : Entropy) (n : Nat) : Entropy := { e with position := e.position + 32 * n }

/-- The key pair that is drawn after `n` others. -/
def pair (e : Entropy) (n : Nat) : KeyPair := (KeyPair.generate (e.skip n)).1

@[simp] theorem skip_skip (e : Entropy) (m n : Nat) : (e.skip m).skip n = e.skip (m + n) := by
  simp only [skip, Nat.mul_add, Nat.add_assoc]

@[simp] theorem pair_skip (e : Entropy) (m n : Nat) : (e.skip m).pair n = e.pair (m + n) := by
  simp only [pair, skip_skip]

theorem skip_injective (e : Entropy) {m n : Nat} (same : e.skip m = e.skip n) : m = n := by
  have := congrArg Entropy.position same
  simp only [skip] at this
  omega

/-- The key pairs that are drawn between one place of a stream and a later one. -/
def drawn (e e' : Entropy) : List KeyPair := (List.range ((e'.position - e.position) / 32)).map e.pair

theorem drawn_skip (e : Entropy) (n : Nat) : e.drawn (e.skip n) = (List.range n).map e.pair := by
  have count : (e.position + 32 * n - e.position) / 32 = n := by omega
  simp only [drawn, skip, count]

end Entropy

/-! ## Computations of the library -/

/-- A computation that draws and keeps a log, seen without its log. -/
abbrev Act.Yields (x : Act A) (e : Entropy) (result : Except Fault A) (e' : Entropy) : Prop :=
  DoubleRatchet.Yields Ambient.entropy x e result e'

namespace Act

theorem note_yields (level : Level) (text : String) (e : Entropy) : Act.Yields (note level text) e (.ok ()) e :=
  fun _ shown => ⟨_, rfl, shown⟩

theorem generate_yields (e : Entropy) :
    Act.Yields (liftM KeyPair.generate : Act KeyPair) e (.ok (e.pair 0)) (e.skip 1) := by
  rintro ambient rfl
  exact ⟨_, rfl, rfl⟩

end Act

/-- The stores of a device and its source of randomness: all but its log. -/
def Device.contents (device : Device) : Stores × Entropy := (device.stores, device.ambient.entropy)

/-- A computation on a device, seen without its log. -/
abbrev OnDevice.Yields (x : OnDevice A) (before : Stores × Entropy) (result : Except Fault A)
    (after : Stores × Entropy) : Prop :=
  DoubleRatchet.Yields Device.contents x before result after

namespace OnDevice

theorem act_yields {x : Act A} {e e' : Entropy} {result : Except Fault A} (stores : Stores)
    (yields : Act.Yields x e result e') : OnDevice.Yields (OnDevice.act x) (stores, e) result (stores, e') := by
  rintro ⟨stores', ambient⟩ shown
  cases shown
  obtain ⟨ambient', run, shown⟩ := yields ambient rfl
  refine ⟨⟨stores', ambient'⟩, ?_, by rw [← shown]; rfl⟩
  simp only [OnDevice.act, run]

theorem call_yields (stores : Stores) (e : Entropy) (call : StoreCall A) :
    OnDevice.Yields (OnDevice.call call) (stores, e) (stores.answer call).1 ((stores.answer call).2, e) := by
  rintro ⟨stores', ambient⟩ shown
  cases shown
  exact ⟨_, rfl, rfl⟩

end OnDevice

end DoubleRatchet
