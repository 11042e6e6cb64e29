import Playpen.Proofs.Config.Validation

namespace Playpen.Config

def integer? (vars : Variables) (name : String) : Option Int :=
  (nonempty? vars name).bind Numeral.integer?

theorem integerVariable?_eq (vars : Variables) (name : String) (log : List Record) :
    ∃ log', integerVariable? vars name log = (.ok (integer? vars name), log') := by
  unfold integerVariable? integer?
  rcases nonempty? vars name with _ | text
  · exact ⟨log, rfl⟩
  · dsimp only [Option.bind]
    rcases Numeral.integer? text with _ | i
    · exact ⟨_, rfl⟩
    · exact ⟨log, rfl⟩

def timeLimit (vars : Variables) (c : Config) : Except Misuse Value :=
  (integer? vars "MAX_EXECUTION_TIME").elim (.ok c.sandbox.maxExecutionTime) secondsOfMillis

def limited (vars : Variables) (c : Config) (limit : Value) : Config :=
  applyText vars { c with
    sandbox := { c.sandbox with
      maxExecutionTime := limit
      memoryLimit := (integer? vars "MAX_MEMORY").elim c.sandbox.memoryLimit .int }
    maxCodeSize := (integer? vars "MAX_CODE_SIZE").elim c.maxCodeSize .int }

theorem withVariables_eq (vars : Variables) (c : Config) (log : List Record) :
    (withVariables vars c log).1 = used ((timeLimit vars c).map (limited vars c)) := by
  obtain ⟨log₁, h₁⟩ := integerVariable?_eq vars "MAX_EXECUTION_TIME" log
  obtain ⟨log₂, h₂⟩ := integerVariable?_eq vars "MAX_MEMORY" log₁
  obtain ⟨log₃, h₃⟩ := integerVariable?_eq vars "MAX_CODE_SIZE" log₂
  unfold withVariables timeLimit limited
  rw [Act.bind_ok h₁]
  rcases integer? vars "MAX_EXECUTION_TIME" with _ | ms
  · dsimp only
    rw [pure_bind, Act.bind_ok h₂]
    rcases integer? vars "MAX_MEMORY" with _ | megabytes <;> dsimp only <;>
      rw [pure_bind, Act.bind_ok h₃] <;> rcases integer? vars "MAX_CODE_SIZE" with _ | size <;> rfl
  · dsimp only
    rw [Option.elim_some]
    rcases secondsOfMillis ms with m | limit
    · rfl
    · rw [Act.bind_ok (used_ok rfl log₁), pure_bind, Act.bind_ok h₂]
      rcases integer? vars "MAX_MEMORY" with _ | megabytes <;> dsimp only <;>
        rw [pure_bind, Act.bind_ok h₃] <;> rcases integer? vars "MAX_CODE_SIZE" with _ | size <;> rfl

def Endless (vars : Variables) : Prop :=
  ∃ ms negative, integer? vars "MAX_EXECUTION_TIME" = some ms ∧ Double.ofInt ms = .infinite negative

-- An equation of functions: with an argument, comparing the two sides would compute the number.
theorem doubleOfInt_eq : Value.doubleOfInt = fun i =>
    match Double.ofInt i with
    | .infinite _ => .error .tooLarge
    | x => .ok x := by
  delta Value.doubleOfInt
  generalize Double.ofInt = f
  funext i
  cases f i <;> rfl

theorem secondsOfMillis_infinite {ms : Int} {negative : Bool} (h : Double.ofInt ms = .infinite negative) :
    secondsOfMillis ms = .error .tooLarge := by
  rw [secondsOfMillis, doubleOfInt_eq]
  dsimp only
  rw [h]
  rfl

theorem secondsOfMillis_or_infinite (ms : Int) : (∃ x, secondsOfMillis ms = .ok (.float x)) ∨
    ∃ negative, Double.ofInt ms = .infinite negative := by
  rw [secondsOfMillis, doubleOfInt_eq]
  dsimp only
  cases Double.ofInt ms with
  | infinite negative => exact .inr ⟨negative, rfl⟩
  | nan => exact .inl ⟨_, rfl⟩
  | finite x => exact .inl ⟨_, rfl⟩

theorem timeLimit_endless {vars : Variables} (h : Endless vars) (c : Config) :
    timeLimit vars c = .error .tooLarge := by
  obtain ⟨ms, negative, hms, hinf⟩ := h
  rw [timeLimit, hms, Option.elim_some, secondsOfMillis_infinite hinf]

theorem timeLimit_or_endless (vars : Variables) (c : Config) :
    (∃ limit, timeLimit vars c = .ok limit) ∨ Endless vars := by
  rcases hms : integer? vars "MAX_EXECUTION_TIME" with _ | ms
  · exact .inl ⟨_, by rw [timeLimit, hms, Option.elim_none]⟩
  · obtain ⟨_, hx⟩ | ⟨negative, hinf⟩ := secondsOfMillis_or_infinite ms
    · exact .inl ⟨_, by rw [timeLimit, hms, Option.elim_some, hx]⟩
    · exact .inr ⟨ms, negative, hms, hinf⟩

theorem timeLimit_form {vars : Variables} {c : Config} {limit : Value} (h : timeLimit vars c = .ok limit) :
    limit = c.sandbox.maxExecutionTime ∨ ∃ x, limit = .float x := by
  unfold timeLimit at h
  rcases hms : integer? vars "MAX_EXECUTION_TIME" with _ | ms <;> rw [hms] at h
  · cases h
    exact .inl rfl
  · rw [Option.elim_some] at h
    obtain ⟨x, hx⟩ | ⟨_, hinf⟩ := secondsOfMillis_or_infinite ms
    · cases hx.symm.trans h
      exact .inr ⟨x, rfl⟩
    · cases (secondsOfMillis_infinite hinf).symm.trans h

theorem set_answered {x : TextVariable} (hx : x ∈ textVariables) (s : String) {c : Config}
    (h : Check.Answered c.checks) : Check.Answered (x.set (.text s) c).checks := by
  rw [checks_answered] at h ⊢
  simp only [textVariables, List.mem_cons, List.not_mem_nil, or_false] at hx
  obtain ⟨hplane, h⟩ := h
  obtain rfl | rfl | rfl | rfl | rfl := hx
  · exact ⟨hplane, h⟩
  · exact ⟨hplane, h⟩
  · exact ⟨controlPlaneCheck_text s, h⟩
  · exact ⟨hplane, h⟩
  · exact ⟨hplane, h⟩

theorem applyText_answered (vars : Variables) {c : Config} (h : Check.Answered c.checks) :
    Check.Answered (applyText vars c).checks := by
  unfold applyText
  refine List.foldlRecOn (motive := fun c : Config => Check.Answered c.checks) textVariables _ h
    fun c hc x hx => ?_
  split
  · exact set_answered hx _ hc
  · exact hc

theorem elim_atMostZero (i? : Option Int) {v : Value} (h : ∃ yes, v.atMostZero = .ok yes) :
    ∃ yes, (i?.elim v .int).atMostZero = .ok yes := by
  cases i? with
  | none => exact h
  | some i => exact ⟨_, rfl⟩

theorem limited_answered {vars : Variables} {c : Config} {limit : Value} (h : Check.Answered c.checks)
    (hlimit : timeLimit vars c = .ok limit) : Check.Answered (limited vars c limit).checks := by
  obtain ⟨hplane, hmemory, htime, hcontrol, hsource, hsize⟩ := checks_answered.mp h
  apply applyText_answered
  refine checks_answered.mpr ⟨hplane, elim_atMostZero _ hmemory, ?_, hcontrol, hsource, elim_atMostZero _ hsize⟩
  obtain rfl | ⟨x, rfl⟩ := timeLimit_form hlimit
  · exact htime
  · exact ⟨_, rfl⟩

theorem overridden_ends (vars : Variables) {c : Config} (hc : validate c = .ok ()) (log : List Record) :
    Ends (overridden vars c log).1
      (fun c' => ∃ limit, timeLimit vars c = .ok limit ∧ validate c' = .ok () ∧ c' = limited vars c limit)
      fun kind => Kind.overflow = kind ∧ Endless vars := by
  have hanswered : Check.Answered c.checks := fun k hk => ⟨false, validate_eq_ok.mp hc k hk⟩
  have hlimit : Ends (withVariables vars c log).1
      (fun c' => ∃ limit, timeLimit vars c = .ok limit ∧ limited vars c limit = c')
      fun kind => Kind.overflow = kind ∧ Endless vars := by
    rw [withVariables_eq]
    obtain ⟨limit, hlimit⟩ | hendless := timeLimit_or_endless vars c
    · have hn : ¬ Endless vars := fun h => by cases hlimit.symm.trans (timeLimit_endless h c)
      rw [hlimit]
      exact (Ends.pure _).congr (by simp) (by simp [hn])
    · rw [timeLimit_endless hendless]
      exact (Ends.other .overflow).congr (by simp) (by simp [hendless])
  refine (hlimit.bind fun c' _ _ => Ends.bind (Ends.validate c') fun _ _ _ => Ends.pure c').congr
    (fun c' => ?_) fun kind => ?_
  · constructor
    · rintro ⟨_, ⟨limit, hlimit, rfl⟩, -, hvalid, rfl⟩
      exact ⟨limit, hlimit, hvalid, rfl⟩
    · rintro ⟨limit, hlimit, hvalid, rfl⟩
      exact ⟨_, ⟨limit, hlimit, rfl⟩, (), hvalid, rfl⟩
  · simp only [and_false, exists_false, or_false]
    refine ⟨fun h => h.elim id ?_, .inl⟩
    rintro ⟨_, ⟨limit, hlimit, rfl⟩, hstuck⟩
    exact absurd (limited_answered hanswered hlimit) hstuck.not_answered

end Playpen.Config
