import Playpen.Proofs.Docker.Contacts

namespace Playpen

variable {τ : Type}

/-- The statuses of a process that did what it was launched for. A command may end with any; with 1 there was
no process to terminate. -/
def Errand.allows : Errand τ → Int → Bool
  | exec .., _ => true
  | terminate .., status => [0, 1].contains status
  | _, status => [0].contains status

namespace Docker

def Contact.entered (errand : Errand τ) : Contact τ → Bool
  | launch _ (.failed cause) =>
    match errand with
    | .exec .. => !cause.isA .fileMissing && cause.isA .system
    | _ => false
  | launch .. => true
  | run _ (.error e) | putArchive _ _ (.error e) => e.isA .engine
  | run .. | putArchive .. => true
  | execCreate _ _ (.error e) | remove (.error e) => e.isA .engine && !e.isA .engineMissing
  | execCreate .. | remove _ => true
  | execStart _ (.error e) => e.isA .systemTimeout || e.isA .engine
  | execStart .. => true
  | execInspect _ (.ok (.map _)) => true
  | execInspect .. | lookUp .. | execRun .. | stats _ => false

def Contact.completes (errand : Errand τ) : Contact τ → Bool
  | launch _ (.exited status _ _) => errand.allows status
  | putArchive _ _ (.ok accepted) => accepted.truth
  | execRun _ _ (.ok status) => Api.isNumber status 0 || Api.isNumber status 1
  | run _ (.ok _) | lookUp _ (.ok _) | execInspect _ (.ok _) | stats (.ok _) | remove (.ok _) => true
  | _ => false

def mark (e : Entry) : String × Bool := (e.operation, e.error.isNone)

def marks (errand : Errand τ) (contacts : List (Contact τ)) : List (String × Bool) :=
  match contacts.getLast? with
  | some c => if c.entered errand then [(errand.name, c.completes errand)] else []
  | none => []

theorem marks_concat (errand : Errand τ) (contacts : List (Contact τ)) (c : Contact τ) :
    marks errand (contacts ++ [c]) = marks errand [c] := by
  unfold marks
  rw [List.getLast?_append]
  rfl

end Docker

end Playpen
