import Playpen.Proofs.Docker.Entries

namespace Playpen.Docker

open Act (Does)
open Utf8 (Bytes)

variable {ω τ α : Type}

inductive IsWhole : Option Value → Prop
  | missing : IsWhole none
  | null : IsWhole (some .null)
  | int (i : Int) : IsWhole (some (.int i))

namespace Contact

def IsProper : Contact τ → Prop
  | launch .. => True
  | run _ (.ok id) => id.IsText
  | execInspect _ (.ok answer) => ∃ entries, answer = .map entries ∧ IsWhole (Value.find? "ExitCode" entries)
  | execRun _ _ (.ok status) => status = .null ∨ status.IsInteger
  | stats (.ok answer) => ∃ entries, answer = .map entries ∧
    ∀ memory, Value.find? "memory_stats" entries = some memory →
      memory = .null ∨ ∃ fields, memory = .map fields ∧ IsWhole (Value.find? "usage" fields)
  | lookUp _ (.ok _) | putArchive _ _ (.ok _) | execCreate _ _ (.ok _) | execStart _ (.ok _) | remove (.ok _) => True
  | run _ (.error e) | lookUp _ (.error e) | putArchive _ _ (.error e) | execCreate _ _ (.error e)
  | execStart _ (.error e) | execInspect _ (.error e) | execRun _ _ (.error e) | stats (.error e)
  | remove (.error e) => e.isA .engine = true

def faults (errand : Errand τ) : Contact τ → Bool
  | lookUp _ (.error e) =>
    match errand with
    | .isRunning _ => !e.isA .engineMissing
    | _ => true
  | run _ (.error _) | putArchive _ _ (.error _) | execCreate _ _ (.error _) | execStart _ (.error _)
  | execInspect _ (.error _) | execRun _ _ (.error _) | stats (.error _) | remove (.error _) => true
  | putArchive _ _ (.ok accepted) => !accepted.truth
  | execRun _ _ (.ok status) => !(Api.isNumber status 0 || Api.isNumber status 1)
  | _ => false

end Contact

def Client.Proper (client : Client ω τ) : Prop := ∀ c, client.Gives c → c.IsProper

def Unfinished (contacts : List (Contact τ)) : Prop :=
  (∃ id command execId, .execCreate id command (.ok execId) ∈ contacts) ∧
    ∀ execId reply, .execStart execId reply ∈ contacts → reply = .ok .blocked

namespace Api

inductive Comes (client : Client ω τ) (errand : Errand τ) (contacts : List (Contact τ)) :
    Except (Failure τ) Reply → Prop
  | malformed {c} (hc : c ∈ contacts) (hgives : client.Gives c) (h : ¬c.IsProper) (out) :
      Comes client errand contacts out
  | faulted {c} (hc : c ∈ contacts) (h : c.faults errand = true)
    (halone : ∀ id, errand = .isRunning id → contacts = [c])
    (hended : ¬Unfinished contacts) (message id) :
    Comes client errand contacts (.error (.controlPlane message id))
  | late {id command} (herrand : errand = .exec id command) (h : ∀ c ∈ contacts, c.faults errand = false)
    (hended : Unfinished contacts) : Comes client errand contacts (.error (.timeout command.timeout))
  | returned (h : ∀ c ∈ contacts, c.faults errand = false) (hended : ¬Unfinished contacts) (reply)
    (habsent : ∀ id e, .lookUp id (.error e) ∈ contacts → reply = .running false) :
    Comes client errand contacts (.ok reply)

structure Goes (client : Client ω τ) (errand : Errand τ) (env : Env (Rack (Noted ω τ) τ) τ)
    (out : Except (Failure τ) Reply) (contacts : List (Contact τ)) (env' : Env (Rack (Noted ω τ) τ) τ) : Prop where
  comes : Comes client errand contacts out
  reports : ∃ entries, Reports env entries env' ∧ entries.map mark = marks errand contacts

inductive Answers (client : Client ω τ) (contact : Except (Failure τ) α → Contact τ) (told : Failure τ → List Entry)
    (env : Env (Rack (Noted ω τ) τ) τ) :
    Except (Failure τ) α → List (Contact τ) → Env (Rack (Noted ω τ) τ) τ → Prop
  | ok {a env'} (hgives : client.Gives (contact (.ok a))) (h : Reports env [] env') :
    Answers client contact told env (.ok a) [contact (.ok a)] env'
  | reported {e env'} (he : e.isA .engine = true) (h : Reports env (told e) env') (message id) :
    Answers client contact told env (.error (.controlPlane message id)) [contact (.error e)] env'
  | foreign {e env'} (hgives : client.Gives (contact (.error e))) (he : e.isA .engine = false)
      (h : Reports env [] env') :
    Answers client contact told env (.error e) [contact (.error e)] env'

structure Ends (errand : Errand τ) (contact : Except (Failure τ) α → Contact τ) (told : Failure τ → List Entry) :
    Prop where
  unasked (id : EnvironmentId) : errand ≠ .isRunning id
  faults (e : Failure τ) : (contact (.error e)).faults errand = true
  proper (e : Failure τ) : (contact (.error e)).IsProper ↔ e.isA .engine = true
  marks (e : Failure τ) :
    (if e.isA .engine then told e else []).map mark = marks errand [contact (.error e)]

section

variable {client : Client ω τ} {env env₁ env' : Env (Rack (Noted ω τ) τ) τ} {errand : Errand τ}

theorem Answers.fails {contact : Except (Failure τ) α → Contact τ} {told : Failure τ → List Entry} {f : Failure τ}
    {added : List (Contact τ)} (h : Answers client contact told env₁ (.error f) added env')
    (hends : Ends errand contact told) (h₁ : Reports env [] env₁) (earlier : List (Contact τ))
    (hended : ∀ e, ¬Unfinished (earlier ++ [contact (.error e)])) :
    Goes client errand env (.error f) (earlier ++ added) env' := by
  cases h with
  | reported he h message id =>
    refine ⟨.faulted List.mem_concat_self (hends.faults _) (fun id h => absurd h (hends.unasked id)) (hended _) _ _,
      _, h₁.after h, ?_⟩
    rw [marks_concat, ← hends.marks, if_pos he]
  | foreign hgives he h =>
    refine ⟨.malformed List.mem_concat_self hgives ?_ _, _, h₁.after h, ?_⟩
    · rw [hends.proper, he]
      exact Bool.noConfusion
    · rw [marks_concat, ← hends.marks, he]
      rfl

theorem does_reporting {contact : Except (Failure τ) α → Contact τ} {x : Call ω τ α}
    {report : Failure τ → Effect (Rack (Noted ω τ) τ) τ (Failure τ)} (told : Failure τ → List Entry)
    (hgives : ∀ w, client.Gives (contact (x w).1))
    (hreport : ∀ e env₁, e.isA .engine = true → Does (report e) env₁ fun r more env₂ =>
      more = [] ∧ (∃ message id, r = .ok (.controlPlane message id)) ∧ Reports env₁ (told e) env₂) :
    Does (reporting (Rack.outside (noting contact x)) report) env (Answers client contact told env) := by
  refine .rescue (does_call hgives) ?_ ?_
  · rintro a _ env₁ ⟨rfl, hg, h⟩
    exact .ok hg h
  · rintro e _ env₁ ⟨rfl, hg, h⟩
    split
    · rename_i he
      refine .bind (hreport e env₁ he) ?_ ?_
      · rintro f _ env₂ ⟨rfl, ⟨message, id, ⟨⟩⟩, h₂⟩
        exact .throw (.reported he (h.after h₂) message id)
      · rintro f _ env₂ ⟨-, ⟨_, _, ⟨⟩⟩, -⟩
    · rename_i he
      exact .throw (.foreign hg (eq_false_of_ne_true he) h)

variable [Seconds τ] [Clock ω τ]

theorem does_traced {operation : String} {id : Option EnvironmentId} (hid : Env.Traceable id) (start : τ)
    (what : String) (e : Failure τ) :
    Does (traced operation id start what e) env fun r more env' => more = [] ∧
      (∃ message id, r = .ok (.controlPlane message id)) ∧ Reports env [⟨operation, id, some e.message⟩] env' := by
  refine .bind_silent (does_trace hid ..) ?_
  intro env₁ h
  exact .pure ⟨rfl, ⟨_, _, rfl⟩, h⟩

omit [Seconds τ] [Clock ω τ] in
theorem does_fault (message : String) (id : Option EnvironmentId) :
    Does (pure (.controlPlane message id) : Effect (Rack (Noted ω τ) τ) τ (Failure τ)) env fun r more env' =>
      more = [] ∧ (∃ message id, r = .ok (.controlPlane message id)) ∧ Reports env [] env' :=
  .pure ⟨rfl, ⟨_, _, rfl⟩, .refl env⟩

omit [Clock ω τ] in
theorem does_look (id : EnvironmentId) :
    Does (look client.noted.onRack id) env (Answers client (.lookUp id) (fun _ => []) env) := by
  refine does_reporting _ (.lookUp id) fun e env₁ he => ?_
  by_cases hm : e.isA .engineMissing
  · simpa [hm] using does_fault "Environment not found" (some id)
  · simpa [hm, fault] using does_fault _ (some id)

theorem does_create (spec : EnvironmentSpec) :
    Does (create client.noted.onRack spec) env fun r added env' =>
      Goes client (.create spec) env (r.map .environment) added env' := by
  refine .step (t := env) rfl rfl (.bind (does_reporting _ (.run _) fun e env₁ he => does_traced ⟨_, rfl⟩ _ _ e) ?_ ?_)
  · rintro id _ env₁ ⟨hgives, h₁⟩
    refine .bind (does_traceSince ..) ?_ ?_
    · rintro _ _ env₂ ⟨rfl, h₂, -⟩
      refine .pure ⟨.returned ?_ ?_ _ ?_, _, h₁.after h₂, rfl⟩
      · simp [Contact.faults]
      · simp [Unfinished]
      · simp
    · rintro e _ env₂ ⟨rfl, h₂, hok⟩
      refine ⟨.malformed List.mem_cons_self hgives ?_ _, _, h₁.after h₂, rfl⟩
      intro hid
      cases hok (traceable_of_isText hid)
  · intro f added env₁ h
    refine h.fails ⟨by simp, fun _ => rfl, fun _ => Iff.rfl, fun e => ?_⟩ (.refl env) [] (by simp [Unfinished])
    cases he : e.isA .engine <;> simp [marks, mark, Contact.entered, Contact.completes, he, Errand.name]

omit [Seconds τ] [Clock ω τ] in
theorem ends_look {id : EnvironmentId} (h : ∀ id, errand ≠ .isRunning id) : Ends errand (.lookUp id) fun _ => [] where
  unasked := h
  faults e := by
    cases errand with
    | isRunning id => exact absurd rfl (h id)
    | _ => rfl
  proper e := Iff.rfl
  marks e := by
    rw [ite_self]
    rfl

theorem does_inject {id : EnvironmentId} (hid : id.IsText) (dest : Value) (archive : Bytes) :
    Does (inject client.noted.onRack id dest archive) env fun r added env' =>
      Goes client (.inject id dest archive) env (r.map fun _ => .done) added env' := by
  have htraceable := traceable_of_isText hid
  refine .step (t := env) rfl rfl (.bind (does_look id) ?_ ?_)
  · rintro status _ env₁ ⟨-, h₁⟩
    refine .bind (does_reporting _ (.putArchive dest archive) fun e _ _ => does_traced htraceable _ _ e) ?_ ?_
    · rintro accepted _ env₂ ⟨-, h₂⟩
      cases haccepted : accepted.truth with
      | false =>
        refine (does_traceThrow htraceable ..).mono ?_
        rintro _ _ env₃ ⟨rfl, rfl, h₃⟩
        refine ⟨.faulted (List.mem_cons_of_mem _ List.mem_cons_self) ?_ (by simp) ?_ _ _, _, (h₁.after h₂).after h₃, ?_⟩
        · simp [Contact.faults, haccepted]
        · simp [Unfinished]
        · simp [marks, mark, Contact.entered, Contact.completes, haccepted, Errand.name]
      | true =>
        refine (does_trace htraceable ..).mono ?_
        rintro _ _ env₃ ⟨rfl, rfl, h₃⟩
        refine ⟨.returned ?_ ?_ _ ?_, _, (h₁.after h₂).after h₃, ?_⟩
        · simp [Contact.faults, haccepted]
        · simp [Unfinished]
        · simp
        · simp [marks, mark, Contact.entered, Contact.completes, haccepted, Errand.name]
    · intro f added env₂ h
      refine h.fails ⟨by simp, fun _ => rfl, fun _ => Iff.rfl, fun e => ?_⟩ h₁ [_] (by simp [Unfinished])
      cases he : e.isA .engine <;> simp [marks, mark, Contact.entered, Contact.completes, he, Errand.name]
  · intro f added env₁ h
    exact h.fails (ends_look (by simp)) (.refl env) [] (by simp [Unfinished])

theorem does_remove {id : EnvironmentId} (hid : id.IsText) :
    Does (remove client.noted.onRack id) env fun r added env' =>
      Goes client (.remove id) env (r.map fun _ => .done) added env' := by
  have htraceable := traceable_of_isText hid
  refine .step (t := env) rfl rfl (.bind (does_look id) ?_ ?_)
  · rintro status _ env₁ ⟨-, h₁⟩
    let told (e : Failure τ) : List Entry := if e.isA .engineMissing then [] else [⟨"remove", some id, some e.message⟩]
    refine .bind (does_reporting told .remove fun e env₂ he => ?_) ?_ ?_
    · by_cases hm : e.isA .engineMissing
      · simpa [told, hm] using does_fault "Environment already removed" (some id)
      · simpa [told, hm] using does_traced htraceable _ _ e
    · rintro _ _ env₂ ⟨-, h₂⟩
      refine (does_trace htraceable ..).mono ?_
      rintro _ _ env₃ ⟨rfl, rfl, h₃⟩
      refine ⟨.returned ?_ ?_ _ ?_, _, (h₁.after h₂).after h₃, rfl⟩
      · simp [Contact.faults]
      · simp [Unfinished]
      · simp
    · intro f added env₂ h
      refine h.fails ⟨by simp, fun _ => rfl, fun _ => Iff.rfl, fun e => ?_⟩ h₁ [_] (by simp [Unfinished])
      cases he : e.isA .engine <;> cases hm : e.isA .engineMissing <;>
        simp [told, marks, mark, Contact.entered, Contact.completes, he, hm, Errand.name]
  · intro f added env₁ h
    exact h.fails (ends_look (by simp)) (.refl env) [] (by simp [Unfinished])

omit [Clock ω τ] in
theorem does_isRunning (id : EnvironmentId) :
    Does (isRunning client.noted.onRack id) env fun r added env' =>
      Goes client (.isRunning id) env (r.map .running) added env' := by
  refine .bind_of_ok (does_call (.lookUp id)).outcome ?_
  rintro reply _ env₁ ⟨rfl, hgives, h₁⟩
  cases reply with
  | ok status =>
    refine .pure ⟨.returned ?_ ?_ _ ?_, _, h₁, rfl⟩
    · simp [Contact.faults]
    · simp [Unfinished]
    · simp
  | error e =>
    dsimp only
    split
    · rename_i hm
      refine .pure ⟨.returned ?_ ?_ _ ?_, _, h₁, rfl⟩
      · simp [Contact.faults, hm]
      · simp [Unfinished]
      · simp
    · rename_i hm
      split
      · refine .throw ⟨.faulted List.mem_cons_self ?_ (fun _ _ => rfl) ?_ _ _, _, h₁, rfl⟩
        · simp [Contact.faults, hm]
        · simp [Unfinished]
      · rename_i he
        exact .throw ⟨.malformed List.mem_cons_self hgives he _, _, h₁, rfl⟩

omit [Seconds τ] [Clock ω τ] in
theorem usage_of_isProper {answer : Value} (h : (Contact.stats (.ok answer) : Contact τ).IsProper) :
    ∃ n, (usage answer : Except (Failure τ) Int) = .ok n := by
  obtain ⟨entries, rfl, h⟩ := h
  unfold usage
  simp only [member?, bind, Except.bind, pure, Except.pure]
  cases hmemory : Value.find? "memory_stats" entries with
  | none => exact ⟨0, rfl⟩
  | some memory =>
    obtain rfl | ⟨fields, rfl, hused⟩ := h memory hmemory
    · exact ⟨0, rfl⟩
    · cases htruth : (Value.map fields).truth with
      | false => exact ⟨0, by simp [htruth]⟩
      | true =>
        generalize hfound : Value.find? "usage" fields = used at hused
        simp only [htruth, hfound]
        cases hused with
        | missing => exact ⟨0, rfl⟩
        | null => exact ⟨0, rfl⟩
        | int i =>
          cases hi : (Value.int i).truth with
          | false => exact ⟨0, by simp [hi]⟩
          | true => exact ⟨i, by simp [hi]; rfl⟩

omit [Clock ω τ] in
theorem does_memoryUsage (id : EnvironmentId) :
    Does (memoryUsage client.noted.onRack id) env fun r added env' =>
      Goes client (.memoryUsage id) env (r.map fun n => .memory (.int n)) added env' := by
  refine .bind (does_look id) ?_ ?_
  · rintro status _ env₁ ⟨-, h₁⟩
    refine .bind (does_reporting (fun _ => []) .stats fun e _ _ => does_fault _ _) ?_ ?_
    · rintro answer _ env₂ ⟨hgives, h₂⟩
      cases husage : (usage answer : Except (Failure τ) Int) with
      | ok n =>
        refine .of_eq rfl rfl ⟨.returned ?_ ?_ _ ?_, _, h₁.after h₂, rfl⟩
        · simp [Contact.faults]
        · simp [Unfinished]
        · simp
      | error f =>
        refine .of_eq rfl rfl
          ⟨.malformed (List.mem_cons_of_mem _ List.mem_cons_self) hgives ?_ _, _, h₁.after h₂, rfl⟩
        intro hproper
        obtain ⟨n, hn⟩ := usage_of_isProper hproper
        rw [hn] at husage
        cases husage
    · intro f added env₂ h
      refine h.fails ⟨by simp, fun _ => rfl, fun _ => Iff.rfl, fun e => ?_⟩ h₁ [_] (by simp [Unfinished])
      rw [ite_self]
      rfl
  · intro f added env₁ h
    exact h.fails (ends_look (by simp)) (.refl env) [] (by simp [Unfinished])

omit [Clock ω τ] in
theorem does_terminate {id : EnvironmentId} (hid : id.IsText) (user : Value) :
    Does (terminate client.noted.onRack id user) env fun r added env' =>
      Goes client (.terminate id user) env (r.map fun _ => .done) added env' := by
  obtain ⟨place, rfl⟩ := hid
  refine .bind (does_look _) ?_ ?_
  · rintro status _ env₁ ⟨-, h₁⟩
    refine .bind (does_reporting (fun _ => []) (.execRun _ _) fun e env₂ _ => ?_) ?_ ?_
    · refine .step (t := env₂) rfl rfl (.bind_silent (does_note _ _) ?_)
      intro env₃ h
      exact .pure ⟨rfl, ⟨_, _, rfl⟩, h⟩
    · rintro status _ env₂ ⟨hgives, h₂⟩
      cases hkilled : isNumber status 0 || isNumber status 1 with
      | true =>
        have hgo : (!isNumber status 0 && !isNumber status 1) = false := by rw [← Bool.not_or, hkilled]; rfl
        rw [hgo]
        refine .pure ⟨.returned ?_ ?_ _ ?_, _, h₁.after h₂, rfl⟩
        · simp only [List.mem_append, List.mem_cons, List.not_mem_nil, or_false]
          rintro c (rfl | rfl)
          · rfl
          · exact congrArg not hkilled
        · simp [Unfinished]
        · simp
      | false =>
        have hstop : (!isNumber status 0 && !isNumber status 1) = true := by rw [← Bool.not_or, hkilled]; rfl
        rw [hstop]
        cases hdisplay : status.display with
        | ok text =>
          refine .step (t := env₂) rfl rfl (.step (t := env₂) rfl rfl (.bind_silent (does_note _ _) ?_))
          intro env₃ h₃
          refine .throw ⟨.faulted (List.mem_cons_of_mem _ List.mem_cons_self) ?_ (by simp) ?_ _ _, _,
            (h₁.after h₂).after h₃, rfl⟩
          · exact congrArg not hkilled
          · simp [Unfinished]
        | error m =>
          refine .stop (t := env₂) rfl rfl
            ⟨.malformed (List.mem_cons_of_mem _ List.mem_cons_self) hgives ?_ _, _, h₁.after h₂, rfl⟩
          rintro (rfl | hinteger)
          · cases hdisplay
          · obtain ⟨text, htext⟩ := hinteger.display
            rw [htext] at hdisplay
            cases hdisplay
    · intro f added env₂ h
      refine h.fails ⟨by simp, fun _ => rfl, fun _ => Iff.rfl, fun e => ?_⟩ h₁ [_] (by simp [Unfinished])
      rw [ite_self]
      rfl
  · intro f added env₁ h
    exact h.fails (ends_look (by simp)) (.refl env) [] (by simp [Unfinished])

omit [Seconds τ] [Clock ω τ] in
theorem does_setConnection {l : Link} {c c' : Connection τ} (hl : env.world.connections[l]? = some c)
    (hc : c'.lasting = c.lasting) :
    Does (setConnection l c') env fun r added env' => r = .ok () ∧ added = [] ∧ Reports env [] env' := by
  refine .of_eq rfl rfl ⟨rfl, rfl, rfl, ?_, ?_⟩
  · cases h : env.tracer.enabled <;> simp
  · refine List.ext_getElem? fun i => ?_
    by_cases hi : l = i
    · subst hi
      obtain ⟨hlt, rfl⟩ := List.getElem?_eq_some_iff.mp hl
      simp [hlt, hc]
    · simp [hi]

inductive Waits (client : Client ω τ) (execId : Value) : Except (Failure τ) Waited → List (Contact τ) → Prop
  | queued : Waits client execId (.ok .blocked) []
  | started {reply} (hgives : client.Gives (.execStart execId reply)) :
    Waits client execId reply [.execStart execId reply]

omit [Seconds τ] [Clock ω τ] in
theorem does_await {w : Workers} (hopen : w.shut = false) (execId : Value) :
    Does (Env.call (await client.noted.onRack execId w)) env fun r added env' => Reports env [] env' ∧
      Waits client execId (r.map Prod.fst) added ∧ ∀ a, r = .ok a → { a.2 with stuck := 0 } =
      { w with stuck := 0 } := by
  refine .within rfl (fun _ => rfl) ?_
  unfold await
  rw [if_neg (Bool.eq_false_iff.mp hopen)]
  split
  · refine .pure ⟨.of_eq rfl rfl, .queued, ?_⟩
    rintro _ ⟨⟩
    rfl
  · refine .bind (M := fun r added rack => added = [.execStart execId r] ∧ client.Gives (.execStart execId r) ∧
      rack.connections = env.world.connections) ⟨[_], rfl, rfl, .execStart _ _, rfl⟩ ?_ ?_
    · rintro waited _ rack ⟨rfl, hgives, hc⟩
      have hstarted := Waits.started hgives
      cases waited with
      | blocked =>
        refine .pure ⟨.of_eq rfl hc, hstarted, ?_⟩
        rintro _ ⟨⟩
        rfl
      | output bytes =>
        refine .pure ⟨.of_eq rfl hc, hstarted, ?_⟩
        rintro _ ⟨⟩
        rfl
    · rintro e _ rack ⟨rfl, hgives, hc⟩
      exact ⟨.of_eq rfl hc, .started hgives, nofun⟩

omit [Seconds τ] [Clock ω τ] in
theorem does_wait {l : Link} {limit : τ} {w : Workers} {c : Connection τ} (hl : env.world.connections[l]? = some c)
    (hc : c.lasting = (Connection.api limit w).lasting) (hopen : w.shut = false) (execId : Value) :
    Does (wait client.noted l limit w execId) env fun r added env' => Reports env [] env' ∧
    Waits client execId r added := by
  refine .bind (does_await hopen execId) ?_ ?_
  · rintro ⟨waited, w'⟩ added env₁ ⟨h₁, hwaits, hw⟩
    obtain ⟨c₁, hl₁, hc₁⟩ := h₁.connection hl
    have hc' : (Connection.api limit w').lasting = c₁.lasting := by
      rw [hc₁, hc]
      exact congrArg (Connection.api limit) (hw _ rfl)
    refine .bind_silent (does_setConnection hl₁ hc') ?_
    intro env₂ h₂
    exact .pure ⟨h₁.after h₂, (List.append_nil added).symm ▸ hwaits⟩
  · rintro e added env₁ ⟨h₁, hwaits, -⟩
    exact ⟨h₁, hwaits⟩

omit [Seconds τ] [Clock ω τ] in
theorem exitCode_of_isWhole {code : Option Value} (h : IsWhole code) :
    ∃ n, (exitCode code : Except (Failure τ) Int) = .ok n := by
  cases h with
  | missing => exact ⟨-1, rfl⟩
  | null => exact ⟨-1, rfl⟩
  | int i => exact ⟨i, rfl⟩

theorem does_inspection {id : EnvironmentId} (hid : id.IsText) (command : Command τ) (start : τ) (execId : Value)
    (output : Option Bytes) (h : Reports env [] env₁) :
    Does (do
        let answer ← reporting (client.noted.onRack.execInspect execId) fun e =>
          pure (fault "Failed to inspect command: " (some id) e)
        let code ← Act.lift (member? "ExitCode" answer)
        Env.traceSince "exec" (some id) start none
        let code ← Act.lift (exitCode code)
        pure ⟨code, output.getD []⟩ : Effect (Rack (Noted ω τ) τ) τ Capture) env₁ fun r more env' =>
      Goes client (.exec id command) env (r.map .capture)
        (.execCreate id command (.ok execId) :: .execStart execId (.ok (.output output)) :: more) env' := by
  refine .bind (does_reporting (fun _ => []) (.execInspect execId) fun e _ _ => does_fault _ _) ?_ ?_
  · rintro answer _ env₂ ⟨hgives, h₂⟩
    cases answer with
    | map entries =>
      refine .step (t := env₂) rfl rfl (.bind_silent (does_trace (traceable_of_isText hid) ..) ?_)
      intro env₃ h₃
      have hreports := (h.after h₂).after h₃
      cases hcode : (exitCode (Value.find? "ExitCode" entries) : Except (Failure τ) Int) with
      | ok status =>
        exact .pure ⟨.returned (by simp [Contact.faults]) (by simp [Unfinished]) _ (by simp), _, hreports, rfl⟩
      | error f =>
        refine .stop (t := env₃) rfl rfl ⟨.malformed (by simp) hgives ?_ _, _, hreports, rfl⟩
        rintro ⟨_, ⟨⟩, hwhole⟩
        obtain ⟨n, hn⟩ := exitCode_of_isWhole hwhole
        rw [hn] at hcode
        cases hcode
    | _ =>
      refine .stop (t := env₂) rfl rfl ⟨.malformed (by simp) hgives ?_ _, _, h.after h₂, rfl⟩
      rintro ⟨_, ⟨⟩, -⟩
  · intro f added env₂ h₂
    refine h₂.fails ⟨by simp, fun _ => rfl, fun _ => Iff.rfl, fun e => ?_⟩ h [_, _] (by simp [Unfinished])
    rw [ite_self]
    rfl

theorem does_unawaited {id : EnvironmentId} (hid : id.IsText) (command : Command τ) (start : τ) {execId : Value}
    {e : Failure τ} (hgives : client.Gives (.execStart execId (.error e))) (h : Reports env [] env₁) :
    Does (if e.isA .systemTimeout then do
        Env.traceSince "exec" (some id) start (some "timeout")
        throw (.timeout command.timeout)
      else if e.isA .engine then do
        let f ← traced "exec" (some id) start "Command failed to run: " e
        throw f
      else throw e : Effect (Rack (Noted ω τ) τ) τ Capture) env₁ fun r more env' =>
      Goes client (.exec id command) env (r.map .capture)
        (.execCreate id command (.ok execId) :: .execStart execId (.error e) :: more) env' := by
  have htraceable := traceable_of_isText hid
  split
  · -- the timeout of a waiting call is none of the engine
    rename_i htimeout
    have hforeign : e.isA .engine = false := by
      revert htimeout
      unfold Failure.isA
      cases e.kind <;> decide
    refine (does_traceThrow htraceable ..).mono ?_
    rintro _ _ env₂ ⟨rfl, rfl, h₂⟩
    refine ⟨.malformed (by simp) hgives (by simp [Contact.IsProper, hforeign]) _, _, h.after h₂, ?_⟩
    simp [marks, mark, Contact.entered, Contact.completes, htimeout, Errand.name]
  · rename_i htimeout
    split
    · rename_i he
      refine .bind (does_traced htraceable ..) ?_ ?_
      · rintro _ _ env₂ ⟨rfl, ⟨_, _, ⟨⟩⟩, h₂⟩
        refine .throw ⟨.faulted (List.mem_cons_of_mem _ List.mem_cons_self) rfl (by simp) (by simp [Unfinished]) _ _, _,
          h.after h₂, ?_⟩
        simp [marks, mark, Contact.entered, Contact.completes, he, Errand.name]
      · rintro _ _ env₂ ⟨-, ⟨_, _, ⟨⟩⟩, -⟩
    · rename_i he
      refine .throw ⟨.malformed (by simp) hgives he _, _, h, ?_⟩
      simp [marks, Contact.entered, htimeout, he]

theorem does_exec {l : Link} {limit : τ} {w : Workers} (hl : env.world.connections[l]? = some (.api limit w))
    (hopen : w.shut = false) {id : EnvironmentId} (hid : id.IsText) (command : Command τ) :
    Does (exec client.noted.onRack (wait client.noted l limit w) id command) env fun r added env' =>
      Goes client (.exec id command) env (r.map .capture) added env' := by
  have htraceable := traceable_of_isText hid
  let told (e : Failure τ) : List Entry := if e.isA .engineMissing then [] else [⟨"exec", some id, some e.message⟩]
  -- A command is created, waited for and inspected, and each of these calls may end the errand.
  refine .step (t := env) rfl rfl (.bind (does_reporting told (.execCreate id command) fun e env₁ he => ?_) ?_ ?_)
  · by_cases hm : e.isA .engineMissing
    · simpa [told, hm] using does_fault "Environment not found" (some id)
    · simpa [told, hm] using does_traced htraceable _ _ e
  · rintro execId _ env₁ ⟨-, h₁⟩
    obtain ⟨c₁, hl₁, hc₁⟩ := h₁.connection hl
    -- The command was created, so it counts as left unless an inspection follows.
    refine .bind_of_ok (does_wait hl₁ hc₁ hopen execId).outcome ?_
    rintro reply _ env₂ ⟨h₂, hwaits⟩
    have h₁₂ : Reports env [] env₂ := h₁.after h₂
    rcases hwaits with _ | hgives
    · refine (does_traceThrow htraceable ..).mono ?_
      rintro _ _ env₃ ⟨rfl, rfl, h₃⟩
      exact ⟨.late rfl (by simp [Contact.faults]) (by simp [Unfinished]), _, h₁₂.after h₃, rfl⟩
    · rcases reply with e | output | _
      · exact does_unawaited hid command _ hgives h₁₂
      · exact does_inspection hid command _ execId output h₁₂
      · refine (does_traceThrow htraceable ..).mono ?_
        rintro _ _ env₃ ⟨rfl, rfl, h₃⟩
        exact ⟨.late rfl (by simp [Contact.faults]) (by simp [Unfinished]), _, h₁₂.after h₃, rfl⟩
  · intro f added env₁ h
    refine h.fails ⟨by simp, fun _ => rfl, fun _ => Iff.rfl, fun e => ?_⟩ (.refl env) [] (by simp [Unfinished])
    cases he : e.isA .engine <;> cases hm : e.isA .engineMissing <;>
      simp [told, marks, mark, Contact.entered, Contact.completes, he, hm, Errand.name]

omit [Seconds τ] [Clock ω τ] in
theorem does_reply {x : Effect (Rack (Noted ω τ) τ) τ α} (f : α → Reply)
    (h : Does x env fun r added env' => Goes client errand env (r.map f) added env') :
    Does (x >>= fun a => pure (f a)) env (Goes client errand env) :=
  .bind h (fun _ added _ h => .pure ((List.append_nil added).symm ▸ h)) fun _ _ _ h => h

theorem does_carry {shell : Shell (Noted ω τ) τ} {l : Link} {limit : τ} {w : Workers}
    (hl : env.world.connections[l]? = some (.api limit w)) (hopen : w.shut = false) (herrand : errand.IsTextual) :
    Does ((plane shell client.noted).carry l errand) env (Goes client errand env) := by
  have hc := connection_apply hl
  cases errand with
  | create spec => exact does_reply _ (.step hc rfl (does_create spec))
  | inject id dest archive => exact does_reply _ (.step hc rfl (does_inject herrand.1 dest archive))
  | exec id command => exact does_reply _ (.step hc rfl (does_exec hl hopen herrand command))
  | terminate id user => exact does_reply _ (.step hc rfl (does_terminate herrand user))
  | isRunning id => exact does_reply _ (.step hc rfl (does_isRunning id))
  | memoryUsage id =>
    refine does_reply _ (.step hc rfl (.bind (does_memoryUsage id) ?_ ?_))
    · intro n added env' h
      exact .pure ((List.append_nil added).symm ▸ h)
    · exact fun _ _ _ h => h
  | remove id => exact does_reply _ (.step hc rfl (does_remove herrand))

end

end Api

/-- What comes of an errand with these contacts: a failure of the control plane exactly if one of them is faulty,
the timeout exactly if a command was left, and no other failure. A missing environment does not run. -/
structure Settled (errand : Errand τ) (contacts : List (Contact τ)) (out : Except (Failure τ) Reply) : Prop where
  controlPlane : (∃ message id, out = .error (.controlPlane message id)) ↔ ∃ c ∈ contacts, c.faults errand = true
  timeout (t : τ) : out = .error (.timeout t) ↔
    (∃ id command, errand = .exec id command ∧ command.timeout = t) ∧ Unfinished contacts
  failure (f : Failure τ) : out = .error f → (∃ message id, f = .controlPlane message id) ∨ ∃ t, f = .timeout t
  missing (id id' : EnvironmentId) (e : Failure τ) : errand = .isRunning id → .lookUp id' (.error e) ∈ contacts →
    e.isA .engineMissing = true → out = .ok (.running false)

theorem Api.Comes.settled {client : Client ω τ} {errand : Errand τ} {contacts : List (Contact τ)}
    {out : Except (Failure τ) Reply} (h : Comes client errand contacts out) (hclient : client.Proper) :
    Settled errand contacts out := by
  cases h with
  | malformed hc hgives h out => exact absurd (hclient _ hgives) h
  | @faulted c hc h halone hended message id =>
    refine ⟨iff_of_true ⟨_, _, rfl⟩ ⟨c, hc, h⟩, fun t => iff_of_false nofun fun ht => hended ht.2, ?_, ?_⟩
    · rintro _ ⟨⟩
      exact .inl ⟨_, _, rfl⟩
    · rintro id id' e rfl he hm
      rw [halone id rfl, List.mem_singleton] at he
      subst he
      simp [Contact.faults, hm] at h
  | late hexec h hended =>
    subst hexec
    refine ⟨iff_of_false nofun ?_, fun t => ⟨?_, ?_⟩, ?_, nofun⟩
    · rintro ⟨c, hc, hfaults⟩
      exact absurd hfaults (Bool.eq_false_iff.mp (h c hc))
    · rintro ⟨⟩
      exact ⟨⟨_, _, rfl, rfl⟩, hended⟩
    · rintro ⟨⟨_, _, ⟨⟩, rfl⟩, -⟩
      rfl
    · rintro _ ⟨⟩
      exact .inr ⟨_, rfl⟩
  | returned h hended reply habsent =>
    refine ⟨iff_of_false nofun ?_, fun t => iff_of_false nofun fun ht => hended ht.2, nofun, ?_⟩
    · rintro ⟨c, hc, hfaults⟩
      exact absurd hfaults (Bool.eq_false_iff.mp (h c hc))
    · rintro id id' e - hc -
      rw [habsent id' e hc]

end Playpen.Docker

namespace Playpen.Script

open Docker

def command : Command Double where
  line := .text "yzc main.yz"
  user := .text "runner"
  workingDir := .text "/work"
  timeout := Double.ofInt 1

end Playpen.Script

namespace Playpen.Docker

end Playpen.Docker
