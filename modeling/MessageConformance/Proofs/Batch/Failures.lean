import MessageConformance.Batch
import MessageConformance.Proofs.Cache.Lookups
import MessageConformance.Proofs.Engine.Passes

/-!
# Failures with something to report

A check that fails on the structure of a document has errors to show for it: no structural failure
is empty (`failsCounted_check`, `Receipt.failsCounted_judge`). All other failures of a check
have a cause of their own.
-/

namespace MessageConformance

open Message

/-- A structural failure has errors. -/
def Failure.IsCounted : Failure → Prop
  | structural errors _ => errors ≠ []
  | _ => True

/-- Wherever a computation fails, its failure is counted. -/
def Attempt.FailsCounted {α : Type} (a : Attempt α) : Prop :=
  ∀ c cause, a.outcome c = .error cause → cause.IsCounted

namespace Attempt

variable {α β : Type}

theorem failsCounted_pure (a : α) : FailsCounted (pure a) := by
  intro c cause failed
  simp at failed

theorem failsCounted_throw {cause : Failure} (counted : cause.IsCounted) :
    FailsCounted (throw cause : Attempt α) := by
  intro c cause' failed
  rw [outcome_throw] at failed
  exact Except.error.inj failed ▸ counted

theorem failsCounted_ofExcept {r : Except Failure α} (counted : ∀ cause, r = .error cause → cause.IsCounted) :
    FailsCounted (ofExcept r) := fun _ cause failed => counted cause failed

theorem failsCounted_lift (w : Work α) : FailsCounted (liftM w : Attempt α) := by
  intro c cause failed
  simp at failed

theorem FailsCounted.bind {a : Attempt α} {next : α → Attempt β} (first : a.FailsCounted)
    (later : ∀ x, (next x).FailsCounted) : (a >>= next).FailsCounted := by
  intro c cause failed
  rw [outcome_bind] at failed
  cases result : a.outcome c with
  | ok x => exact later x _ cause (by simpa [result] using failed)
  | error cause' =>
    rw [result] at failed
    exact Except.error.inj failed ▸ first c cause' result

theorem FailsCounted.discard {a : Attempt α} (first : a.FailsCounted) : FailsCounted (discard a) := by
  intro c cause failed
  rw [outcome_discard] at failed
  cases result : a.outcome c with
  | ok x => simp [result, Except.map] at failed
  | error cause' =>
    rw [result] at failed
    exact Except.error.inj failed ▸ first c cause' result

end Attempt

theorem isCounted_mapError {α ε : Type} {r : Except ε α} {wrap : ε → Failure}
    (counted : ∀ e, (wrap e).IsCounted) :
    ∀ cause, r.mapError wrap = .error cause → cause.IsCounted := by
  intro cause failed
  cases r with
  | ok x => simp [mapError_ok] at failed
  | error e =>
    rw [mapError_error] at failed
    exact Except.error.inj failed ▸ counted e

/-! ## Sessions -/

theorem failsCounted_ofLoading {α : Type} (r : Loading SchemaFailure α) :
    (Attempt.ofLoading r).FailsCounted := by
  intro c
  rw [Attempt.outcome_ofLoading]
  exact isCounted_mapError fun _ => trivial

theorem failsCounted_compileDriver (engine : Engine) (bundle : Schema.Bundle) :
    (compileDriver engine bundle).FailsCounted := by
  intro c
  rw [(compileDriver_spec engine bundle c).1, compiledDriver]
  split
  · intro cause failed
    exact Except.error.inj failed ▸ trivial
  · exact isCounted_mapError fun _ => trivial

theorem failsCounted_getOrCompile (engine : Engine) (store : Store) (key : Key)
    (paths : List String) : (getOrCompile engine store key paths).FailsCounted := by
  refine (Attempt.failsCounted_lift _).bind fun cache => ?_
  split
  · exact Attempt.failsCounted_pure _
  · refine (failsCounted_ofLoading _).bind fun bundle => ?_
    refine (failsCounted_compileDriver engine bundle).bind fun input => ?_
    refine (Attempt.failsCounted_lift _).bind fun cache => ?_
    exact (Attempt.failsCounted_lift _).bind fun _ => Attempt.failsCounted_pure _

theorem failsCounted_sessionFor (engine : Engine) (store : Store) (context : Context) :
    (sessionFor engine store context).FailsCounted := by
  refine (failsCounted_getOrCompile engine store _ _).bind fun schema => ?_
  unfold openSession
  split
  · exact Attempt.failsCounted_pure _
  · exact Attempt.failsCounted_throw trivial

theorem isCounted_of_result {collector : Collector} {cause : Failure}
    (failed : collector.result = .error cause) : cause.IsCounted := by
  unfold Collector.result at failed
  split at failed
  · simp at failed
  · next some =>
    obtain rfl := Except.error.inj failed
    exact mt List.isEmpty_iff.2 some

/-- A structural pass that is failed has errors. -/
theorem failsCounted_check (engine : Engine) (s : Session) (document : Bytes) :
    (s.check engine document).FailsCounted := by
  refine (Attempt.failsCounted_lift _).bind fun (collector, verdict) => ?_
  cases verdict with
  | ok verdict => exact Attempt.failsCounted_ofExcept fun _ => isCounted_of_result
  | error cause => exact Attempt.failsCounted_throw trivial

/-! ## Receipts -/

namespace Receipt

theorem isCounted_toFailure (v : Violation) : v.toFailure.IsCounted := by
  unfold Violation.toFailure
  split <;> trivial

theorem failsCounted_document {α : Type} (r : Except MessageFailure α) :
    (Attempt.ofExcept (r.mapError Failure.document)).FailsCounted :=
  Attempt.failsCounted_ofExcept (isCounted_mapError fun _ => trivial)

theorem failsCounted_checkStructure (engine : Engine) (store : Store) (messaging : Node) :
    (checkStructure engine store messaging).FailsCounted := by
  refine (failsCounted_sessionFor engine store _).bind fun session => ?_
  refine (failsCounted_document _).bind fun text => ?_
  exact (failsCounted_check engine session _).discard

theorem isCounted_of_singleMessaging {scope : Node} {cause : Failure}
    (failed : singleMessaging scope = .error cause) : cause.IsCounted := by
  unfold singleMessaging at failed
  split at failed
  · simp at failed
  · exact Except.error.inj failed ▸ isCounted_toFailure _

theorem isCounted_of_singleReceipt? {r : Registry} {messaging : Node} {cause : Failure}
    (failed : singleReceipt? r messaging = .error cause) : cause.IsCounted := by
  unfold singleReceipt? at failed
  split at failed
  · simp at failed
  · simp at failed
  · exact Except.error.inj failed ▸ isCounted_toFailure _

/-- A message that is judged to be wrong in structure has errors. -/
theorem failsCounted_judge (engine : Engine) (store : Store) (r : Registry) (message : String) :
    (judge engine store r message).FailsCounted := by
  refine (failsCounted_document _).bind fun document => ?_
  split
  · exact Attempt.failsCounted_pure _
  · refine (Attempt.failsCounted_ofExcept fun _ => isCounted_of_singleMessaging).bind fun messaging => ?_
    refine (failsCounted_checkStructure engine store messaging).bind fun _ => ?_
    refine (Attempt.failsCounted_ofExcept fun _ => isCounted_of_singleReceipt?).bind fun receipt => ?_
    refine (Attempt.failsCounted_ofExcept (isCounted_mapError isCounted_toFailure)).bind fun _ => ?_
    exact Attempt.failsCounted_pure _

end Receipt
end MessageConformance
