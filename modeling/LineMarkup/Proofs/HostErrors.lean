import LineMarkup.Host.Samples
import LineMarkup.Proofs.RenderingLocality

/-!
# Errors of the host

A method of the host that fails, fails with an error of its own: a cause, perhaps the text of an
underlying error, and perhaps a place.  The call adds its own place where there is none and changes
nothing else, with one exception.  That the host has no method of a name is an error that the host itself
returns, and the call says it again in terms of the expression.  It knows this error by its kind alone,
and a method may return an error of this kind too, about a method that something behind it does not have.
Such an error is taken for the host's own: its message, its place and the error underneath are lost.

## Main Definitions

* `Expr.hostCall` — the call of a method on the name of the host

## Main Statements

* `Expr.eval_hostCall` — what a call on the host results in
* `Expr.hostCall_errors` — the errors that come out, and when a method is said to be missing
-/

namespace LineMarkup

/-- What locating makes of an error. -/
theorem locate_error {α : Type} (span : Span) (err : EvalError) :
    locate span (.error err : Except EvalError α) =
      .error ⟨err.cause, some (err.span.getD span), err.source⟩ := rfl

namespace Host

variable {host : Host} {name : String} {method : Method}

theorem call_of_get? (h : host.methods.get? name = some method) (args : List Value) :
    host.call name args = method.run args := by
  rw [call, h]

/-- The host fails with the kind of a missing method if it has none of the name, or if the method it has
does so. -/
theorem exists_missing_iff (args : List Value) :
    (∃ err, host.call name args = .error err ∧ err.kind = .undefinedMethod) ↔
      host.has name = false ∨ ∃ method err, host.methods.get? name = some method ∧
        method.run args = .error err ∧ err.kind = .undefinedMethod := by
  cases hget : host.methods.get? name with
  | none =>
      have hhas : host.has name = false := by rw [has, hget, Option.isSome_none]
      exact iff_of_true ⟨_, call_of_not_has hhas args, rfl⟩ (.inl hhas)
  | some method =>
      have hhas : ¬ host.has name = false := by rw [has, hget]; exact Bool.noConfusion
      rw [call_of_get? hget, or_iff_right hhas]
      constructor
      · rintro ⟨err, hrun, hkind⟩
        exact ⟨method, err, rfl, hrun, hkind⟩
      · rintro ⟨_, err, ⟨⟩, hrun, hkind⟩
        exact ⟨err, hrun, hkind⟩

end Host

namespace Scope

variable {scope : Scope} {host : Host} {name : String} {args : List Value}

theorem callHost_of_ok {v : Value} (h : host.call name args = .ok v) :
    scope.callHost host name args = .ok v := by
  rw [callHost, h]

/-- An error of the kind of a missing method is replaced. -/
theorem callHost_of_missing {err : EvalError} (h : host.call name args = .error err)
    (hkind : err.kind = .undefinedMethod) :
    scope.callHost host name args = .error { cause := .noHostMethod scope.hostName name } := by
  rw [callHost, h]
  exact if_pos hkind

/-- Any other error is left as it is. -/
theorem callHost_of_error {err : EvalError} (h : host.call name args = .error err)
    (hkind : err.kind ≠ .undefinedMethod) : scope.callHost host name args = .error err := by
  rw [callHost, h]
  exact if_neg hkind

end Scope

namespace Expr

/-- The call of a method on the name of the host. -/
def hostCall (hostName method : String) (args : List Expr) (name object span : Span) : Expr :=
  .call (.member (.identifier hostName name) method object) args span

section Calls

variable {scope : Scope} {host : Host} {sides : List Side} {args : List Expr} {vs : List Value}
variable (hhost : scope.host = some host) (hargs : evalAll scope sides args = .ok vs)
variable {name : String} {method : Method} (s s' span : Span)

include hhost hargs

/-- **A call on the host is what the host makes of the arguments, located.** -/
theorem eval_hostCall (name : String) :
    (hostCall scope.hostName name args s s' span).eval scope sides =
      locate span (scope.callHost host name vs) := by
  have hat : scope.hostAt? (.identifier scope.hostName s) = some host := by
    rw [Scope.hostAt?, if_pos (isIdentifier_self _ _), hhost]
  rw [hostCall, eval_call_member, hargs, hat]
  rfl

theorem eval_hostCall_of_ok (hmethod : host.methods.get? name = some method) {v : Value}
    (hrun : method.run vs = .ok v) :
    (hostCall scope.hostName name args s s' span).eval scope sides = .ok v := by
  have hcall : host.call name vs = .ok v := (Host.call_of_get? hmethod vs).trans hrun
  rw [eval_hostCall hhost hargs, Scope.callHost_of_ok hcall]
  rfl

/-- An error that a method returns comes out in the place that it has, else in that of the call. -/
theorem eval_hostCall_of_error (hmethod : host.methods.get? name = some method) {err : EvalError}
    (hrun : method.run vs = .error err) (hkind : err.kind ≠ .undefinedMethod) :
    (hostCall scope.hostName name args s s' span).eval scope sides =
      .error ⟨err.cause, some (err.span.getD span), err.source⟩ := by
  have hcall : host.call name vs = .error err := (Host.call_of_get? hmethod vs).trans hrun
  rw [eval_hostCall hhost hargs, Scope.callHost_of_error hcall hkind, locate_error]

/-- An error of the kind of a missing method is the same for all methods and all causes. -/
theorem eval_hostCall_of_missing {err : EvalError} (hcall : host.call name vs = .error err)
    (hkind : err.kind = .undefinedMethod) :
    (hostCall scope.hostName name args s s' span).eval scope sides =
      .error ⟨.noHostMethod scope.hostName name, some span, none⟩ := by
  rw [eval_hostCall hhost hargs, Scope.callHost_of_missing hcall hkind]
  rfl

end Calls

/-- **Errors of host methods pass through a call, unless they are of the kind of a missing method.**  Take
a call on the host with arguments that have values.  It fails with the error that the method is missing
exactly if there is no method of this name, or the one there is returns an error of this kind, whatever
this error is about.  What else a method of the host returns is what comes out: its value, or its error
with the same cause and the same underlying error, in the place that the method gave it, else in that of
the call. -/
theorem hostCall_errors {scope : Scope} {host : Host} {sides : List Side} {args : List Expr}
    {vs : List Value} (hhost : scope.host = some host)
    (hargs : evalAll scope sides args = .ok vs) (name : String) (s s' span : Span) :
    ((∃ err, (hostCall scope.hostName name args s s' span).eval scope sides = .error err ∧
        err.kind = .undefinedMethod ∧
        err.message = scope.hostName ++ "." ++ name ++ " is not a function") ↔
      host.has name = false ∨ ∃ method err, host.methods.get? name = some method ∧
        method.run vs = .error err ∧ err.kind = .undefinedMethod) ∧
    ∀ method, host.methods.get? name = some method →
      (∀ v, method.run vs = .ok v →
        (hostCall scope.hostName name args s s' span).eval scope sides = .ok v) ∧
      ∀ err, method.run vs = .error err →
        (err.kind ≠ .undefinedMethod →
          (hostCall scope.hostName name args s s' span).eval scope sides =
            .error ⟨err.cause, some (err.span.getD span), err.source⟩) ∧
        (err.kind = .undefinedMethod →
          (hostCall scope.hostName name args s s' span).eval scope sides =
            .error ⟨.noHostMethod scope.hostName name, some span, none⟩) := by
  refine ⟨?_, fun method hmethod => ⟨fun v hrun => ?_, fun err hrun => ⟨fun hkind => ?_,
    fun hkind => ?_⟩⟩⟩
  · rw [← Host.exists_missing_iff]
    constructor
    · rintro ⟨err, heval, hkind, -⟩
      cases hcall : host.call name vs with
      | ok v =>
          rw [eval_hostCall hhost hargs, Scope.callHost_of_ok hcall] at heval
          cases heval
      | error err' =>
          refine ⟨err', rfl, Classical.byContradiction fun hother => hother ?_⟩
          -- An error of another kind would have kept it.
          rw [eval_hostCall hhost hargs, Scope.callHost_of_error hcall hother] at heval
          cases heval
          exact hkind
    · rintro ⟨err, hcall, hkind⟩
      exact ⟨_, eval_hostCall_of_missing hhost hargs s s' span hcall hkind, rfl, rfl⟩
  · exact eval_hostCall_of_ok hhost hargs s s' span hmethod hrun
  · exact eval_hostCall_of_error hhost hargs s s' span hmethod hrun hkind
  · exact eval_hostCall_of_missing hhost hargs s s' span
      ((Host.call_of_get? hmethod vs).trans hrun) hkind

/-- An error with another one underneath and no place, which gets that of the call. -/
theorem hostCall_errors_wrapped :
    (Scope.mk [] .flat "r" (some (Host.empty.register Samples.wrapped))).host =
      some (Host.empty.register Samples.wrapped) ∧
    evalAll ⟨[], .flat, "r", some (Host.empty.register Samples.wrapped)⟩ []
      [.literal (.string "x") ⟨10, 13⟩] = .ok [.string "x"] ∧
    (hostCall "r" "wrapped" [.literal (.string "x") ⟨10, 13⟩] ⟨0, 1⟩ ⟨0, 9⟩ ⟨0, 14⟩).eval
        ⟨[], .flat, "r", some (Host.empty.register Samples.wrapped)⟩ [] =
      .error ⟨.raised .host "failed to load partial", some ⟨0, 14⟩, some "x"⟩ := by
  have hargs : evalAll ⟨[], .flat, "r", some (Host.empty.register Samples.wrapped)⟩ []
      [.literal (.string "x") ⟨10, 13⟩] = .ok [.string "x"] := rfl
  refine ⟨rfl, hargs, ?_⟩
  exact (((hostCall_errors rfl hargs "wrapped" ⟨0, 1⟩ ⟨0, 9⟩ ⟨0, 14⟩).2 Samples.wrapped rfl).2 _
    rfl).1 (by decide)

/-- A method that is there, and says in a place of its own that another one is missing. -/
theorem hostCall_of_ghost :
    (Host.empty.register Samples.ghost).has "ghost" = true ∧
    (Host.empty.register Samples.ghost).call "ghost" [.string "x"] =
      .error ⟨.noHostMethod "inner" "x", some ⟨7, 9⟩, none⟩ ∧
    (hostCall "r" "ghost" [.literal (.string "x") ⟨8, 11⟩] ⟨0, 1⟩ ⟨0, 7⟩ ⟨0, 12⟩).eval
        ⟨[], .flat, "r", some (Host.empty.register Samples.ghost)⟩ [] =
      .error ⟨.noHostMethod "r" "ghost", some ⟨0, 12⟩, none⟩ :=
  ⟨rfl, rfl, rfl⟩

end Expr

end LineMarkup
