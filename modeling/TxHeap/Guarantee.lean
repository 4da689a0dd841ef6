/-
  TxHeap.Guarantee — what is true however an attempt or a step ends.

  `x.FailsWith kind` says of an attempt that it fails with failures of this kind only.

  A `Guarantee` is a relation between the states before and after a step, with the failures
  that are allowed, and it goes on from step to step. That a step meets it (`Step.Meets`)
  follows from its parts by one rule for each way to build a step. What is seen of the state
  may stay as it was (`Guarantee.unchanged`), a property may be kept (`kept`), a measure may
  not rise (`neverRises`), or only the failures may matter (`failing`).
-/
import TxHeap.Arena
import TxHeap.Ends

namespace TxHeap

/-! ## Attempts -/

def Failure.IsRefusal (f : Failure) : Prop := ∃ cause, f = .refused cause

namespace Attempt

variable {α β : Type} {kind : Failure → Prop} {x : Attempt α}

def FailsWith (kind : Failure → Prop) (x : Attempt α) : Prop := ∀ f, x = .error f → kind f

theorem failsWith_ok {a : α} : FailsWith kind (.ok a) := nofun

theorem failsWith_error {f : Failure} (h : kind f) : FailsWith kind (.error f : Attempt α) := by
  intro f' e
  cases e
  exact h

theorem failsWith_refuse {cause : Refusal} (h : kind (.refused cause)) : FailsWith kind (refuse cause : Attempt α) :=
  failsWith_error h

theorem failsWith_bind {g : α → Attempt β} (hx : x.FailsWith kind) (hg : ∀ a, (g a).FailsWith kind) :
    FailsWith kind (x >>= g) := by
  intro f h
  cases x with
  | ok a => exact hg a f h
  | error f' =>
    cases h
    exact hx _ rfl

theorem failsWith_demand {condition : Prop} [Decidable condition] {cause : Refusal} (h : kind (.refused cause)) :
    FailsWith kind (demand condition cause) := by
  intro f e
  rw [(require_eq_error.1 e).2]
  exact h

theorem failsWith_arith {x : Except Overflow α} (h : ∀ overflow, kind (.overflow overflow)) : FailsWith kind (arith x) := by
  cases x with
  | ok a => exact failsWith_ok
  | error overflow => exact failsWith_error (h overflow)

theorem failsWith_ofOption {cause : Refusal} {o : Option α} (h : kind (.refused cause)) :
    FailsWith kind (ofOption cause o) := by
  cases o with
  | none => exact failsWith_refuse h
  | some a => exact failsWith_ok

end Attempt

namespace Arena

open Attempt

variable {kind : Failure → Prop} {a : Arena} {addr len value obj : Nat} {h : Header} {bytes : List UInt8}

theorem failsWith_checkAccess (refused : kind (.refused (.invalidAccess addr len))) :
    (a.checkAccess addr len).FailsWith kind :=
  failsWith_demand refused

theorem failsWith_read (refused : kind (.refused (.invalidAccess addr len))) : (a.read addr len).FailsWith kind :=
  failsWith_bind (failsWith_checkAccess refused) fun _ => failsWith_ok

theorem failsWith_write (refused : kind (.refused (.invalidAccess addr bytes.length))) :
    (a.write addr bytes).FailsWith kind :=
  failsWith_bind (failsWith_checkAccess refused) fun _ => failsWith_ok

theorem failsWith_readWord (refused : kind (.refused (.invalidAccess addr wordSize))) :
    (a.readWord addr).FailsWith kind :=
  failsWith_bind (failsWith_checkAccess refused) fun _ => failsWith_ok

theorem failsWith_writeWord (refused : kind (.refused (.invalidAccess addr wordSize))) :
    (a.writeWord addr value).FailsWith kind :=
  failsWith_bind (failsWith_checkAccess refused) fun _ => failsWith_ok

theorem failsWith_header (refused : kind (.refused (.invalidAccess obj headerSize))) : (a.header obj).FailsWith kind :=
  failsWith_bind (failsWith_checkAccess refused) fun _ => failsWith_ok

theorem failsWith_setHeader (refused : kind (.refused (.invalidAccess obj headerSize))) :
    (a.setHeader obj h).FailsWith kind :=
  failsWith_bind (failsWith_checkAccess refused) fun _ => failsWith_ok

end Arena

/-! ## Steps -/

structure Guarantee (σ : Type) where
  rel : σ → σ → Prop
  /-- The failures that are allowed from a state on. -/
  fails : σ → Failure → Prop
  refl : ∀ s, rel s s
  trans : ∀ {s t r}, rel s t → rel t r → rel s r
  later : ∀ {s t f}, rel s t → fails t f → fails s f

namespace Guarantee

variable {σ κ : Type}

/-- A relation between the states; all failures are allowed. -/
def ofRel (rel : σ → σ → Prop) (refl : ∀ s, rel s s) (trans : ∀ {s t r}, rel s t → rel t r → rel s r) : Guarantee σ where
  rel
  fails _ _ := True
  refl
  trans
  later _ h := h

def unchanged (view : σ → κ) : Guarantee σ :=
  .ofRel (fun s t => view t = view s) (fun _ => rfl) fun h h' => h'.trans h

def kept (I : σ → Prop) : Guarantee σ := .ofRel (fun s t => I s → I t) (fun _ h => h) fun h h' hs => h' (h hs)

def neverRises (measure : σ → Nat) : Guarantee σ :=
  .ofRel (fun s t => measure t ≤ measure s) (fun _ => Nat.le_refl _) fun h h' => Nat.le_trans h' h

/-- The failures are of this kind, and the states may be any. -/
def failing (kind : Failure → Prop) : Guarantee σ where
  rel _ _ := True
  fails _ := kind
  refl _ := trivial
  trans _ _ := trivial
  later _ h := h

/-- Whoever meets the first meets the second. -/
structure Implies (G H : Guarantee σ) : Prop where
  rel : ∀ {s t}, G.rel s t → H.rel s t
  fails : ∀ {s f}, G.fails s f → H.fails s f

theorem Implies.refl (G : Guarantee σ) : G.Implies G := ⟨id, id⟩

end Guarantee

namespace Step

variable {σ α β κ : Type} {G H : Guarantee σ}

def Meets (x : Step σ α) (G : Guarantee σ) : Prop :=
  ∀ s, Ends x s (fun _ t => G.rel s t) fun f t => G.rel s t ∧ G.fails s f

theorem Meets.imply {x : Step σ α} (h : x.Meets G) (le : G.Implies H) : x.Meets H := fun s =>
  (h s).mono (fun _ _ rel => le.rel rel) fun _ _ failed => ⟨le.rel failed.1, le.fails failed.2⟩

/-- Where the failures do not matter, the state that is left is as guaranteed. -/
theorem Meets.ends {x : Step σ α} (h : x.Meets G) (s : σ) : Ends x s (fun _ t => G.rel s t) fun _ t => G.rel s t :=
  (h s).mono (fun _ _ rel => rel) fun _ _ failed => failed.1

theorem meets_pure (a : α) : (pure a : Step σ α).Meets G := G.refl

theorem meets_get : (get : Step σ σ).Meets G := G.refl

theorem meets_throw {f : Failure} (h : ∀ s, G.fails s f) : (throw f : Step σ α).Meets G := fun s => ⟨G.refl s, h s⟩

theorem meets_refuse {cause : Refusal} (h : ∀ s, G.fails s (.refused cause)) : (refuse cause : Step σ α).Meets G :=
  meets_throw h

theorem meets_modify {f : σ → σ} (h : ∀ s, G.rel s (f s)) : (modify f : Step σ Unit).Meets G := h

theorem meets_ofAttempt {x : Attempt α} (h : ∀ s, x.FailsWith (G.fails s)) : (ofAttempt x : Step σ α).Meets G := by
  intro s
  rw [ends_ofAttempt]
  exact ⟨fun _ _ => G.refl s, fun f hf => ⟨G.refl s, h s f hf⟩⟩

theorem meets_demand {condition : Prop} [Decidable condition] {cause : Refusal} (h : ∀ s, G.fails s (.refused cause)) :
    (demand condition cause : Step σ Unit).Meets G :=
  meets_ofAttempt fun s => Attempt.failsWith_demand (h s)

theorem meets_bind {x : Step σ α} {f : α → Step σ β} (hx : x.Meets G) (hf : ∀ a, (f a).Meets G) : (x >>= f).Meets G := by
  intro s
  rw [ends_bind]
  refine (hx s).mono ?_ fun _ _ failed => failed
  intro a t rel
  exact (hf a t).mono (fun _ _ h => G.trans rel h) fun _ _ failed => ⟨G.trans rel failed.1, G.later rel failed.2⟩

theorem meets_map {x : Step σ α} {f : α → β} (hx : x.Meets G) : (f <$> x).Meets G := by
  intro s
  rw [ends_map]
  exact hx s

theorem meets_forM {f : α → Step σ Unit} {as : List α} (hf : ∀ a ∈ as, (f a).Meets G) : (as.forM f).Meets G := by
  induction as with
  | nil => exact meets_pure _
  | cons a as ih => exact meets_bind (hf a List.mem_cons_self) fun _ => ih fun b hb => hf b (List.mem_cons_of_mem a hb)

end Step

end TxHeap
