import CallBridge.CText.Pattern
import CallBridge.Interleaving

/-!
# Concurrent requests

Requests for pattern texts share one table. A request first looks its length up and is served if the
text is there; if not, it adds the text in a second step, between which and the first any other
request may act. `Request.alone` says that an undisturbed request does what `PatternTable.get` does.
-/

namespace CallBridge.CText

/-- Where a request stands. Its length is capped when it looks the text up. -/
inductive Request where
  | asking (length : Nat)
  | missed (length : Nat)
  | served (text : PatternText)
  deriving DecidableEq, Repr

namespace Request

/-- The next step of a request. -/
def advance : Conduct PatternTable Request
  | t, asking request =>
    let length := min request maxLength
    match t.find? length with
    | some text => (t, served text)
    | none => (t, missed length)
  | t, missed length =>
    let (text, t) := t.add length
    (t, served text)
  | t, served text => (t, served text)

/-- Requests on an empty table before any of them has taken a step. -/
def fresh (lengths : Nat → Nat) : Crowd PatternTable Request := ⟨{}, fun i => asking (lengths i)⟩

/-- Requests at work. -/
def serve (lengths : Nat → Nat) (schedule : List Nat) : Crowd PatternTable Request :=
  (fresh lengths).run (fun _ => advance) schedule

/-- A request that nobody disturbs is served what the table gives. -/
theorem alone (t : PatternTable) (request : Nat) :
    let after := Crowd.run (fun _ => advance) ⟨t, fun _ => asking request⟩ [0, 0]
    after.shared = (t.get request).2 ∧ after.position 0 = served (t.get request).1 := by
  cases h : t.find? (min request maxLength) <;> simp [advance, PatternTable.get, h]

end Request
end CallBridge.CText
