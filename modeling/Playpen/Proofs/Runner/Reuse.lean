import Playpen.Proofs.Runner.Aborts

namespace Playpen

open PlaneCall (Only created?)

variable {ω τ : Type} {e : EnvironmentId} {calls more : List (PlaneCall τ)}

def Vouched (e : EnvironmentId) (calls : List (PlaneCall τ)) : Prop :=
  ∃ l, .isRunning l e (.ok true) ∈ calls

def Missed (e : EnvironmentId) (calls : List (PlaneCall τ)) : Prop :=
  ∃ l, .isRunning l e (.ok false) ∈ calls

def Occupied (e : EnvironmentId) (calls : List (PlaneCall τ)) : Prop :=
  ∃ l command reply, .exec l e command reply ∈ calls

def Guarded (e : EnvironmentId) (calls : List (PlaneCall τ)) : Prop :=
  ∀ before l command reply after, calls = before ++ .exec l e command reply :: after → Vouched e before

theorem missed_append : Missed e (calls ++ more) ↔ Missed e calls ∨ Missed e more := by
  simp only [Missed, List.mem_append, exists_or]

theorem occupied_append : Occupied e (calls ++ more) ↔ Occupied e calls ∨ Occupied e more := by
  simp only [Occupied, List.mem_append, exists_or]

theorem Vouched.append (h : Vouched e calls) (more : List (PlaneCall τ)) : Vouched e (calls ++ more) :=
  h.imp fun _ hm => List.mem_append_left more hm

theorem Vouched.prepend (h : Vouched e more) (calls : List (PlaneCall τ)) : Vouched e (calls ++ more) :=
  h.imp fun _ hm => List.mem_append_right calls hm

theorem PlaneCall.Only.not_occupied {ops : List PlaneCall.Op} (h : Only ops calls) (hx : .exec ∉ ops) :
    ¬ Occupied e calls := fun ⟨_, _, _, hm⟩ => hx (h _ hm)

theorem PlaneCall.Only.not_missed {ops : List PlaneCall.Op} (h : Only ops calls) (hx : .isRunning ∉ ops) :
    ¬ Missed e calls := fun ⟨_, hm⟩ => hx (h _ hm)

section

variable {l : Link} {id : EnvironmentId} {command : Command τ} {reply : Except (Failure τ) Capture}
  {after : List (PlaneCall τ)}

theorem Occupied.of_exec (h : Occupied e (.exec l id command reply :: after))
    (hafter : Only [.terminate] after) : id = e := by
  obtain ⟨_, _, _, hm⟩ := h
  rcases List.mem_cons.mp hm with hm | hm
  · cases hm
    rfl
  · simpa [PlaneCall.op] using hafter _ hm

theorem not_missed_exec (hafter : Only [.terminate] after) :
    ¬ Missed e (.exec l id command reply :: after) := by
  have honly : Only [.exec, .terminate] (.exec l id command reply :: after) :=
    PlaneCall.only_cons.mpr ⟨by simp [PlaneCall.op], hafter.mono (by simp)⟩
  exact honly.not_missed (by simp)

end

theorem Guarded.of_not_occupied (h : ¬ Occupied e calls) : Guarded e calls := by
  rintro before l command reply after rfl
  exact absurd ⟨l, command, reply, by simp⟩ h

theorem split_append {c : PlaneCall τ} {before after : List (PlaneCall τ)}
    (h : calls ++ more = before ++ c :: after) :
    (∃ rest, calls = before ++ c :: rest ∧ after = rest ++ more) ∨
      ∃ first, more = first ++ c :: after ∧ before = calls ++ first := by
  rcases List.append_eq_append_iff.mp h with ⟨first, hbefore, hmore⟩ | ⟨rest, hcalls, hrest⟩
  · exact .inr ⟨first, hmore, hbefore⟩
  · cases rest with
    | nil => exact .inr ⟨[], hrest.symm, by simpa using hcalls.symm⟩
    | cons d rest =>
      rw [List.cons_append, List.cons.injEq] at hrest
      exact .inl ⟨rest, hrest.1 ▸ hcalls, hrest.2⟩

theorem Guarded.append (h : Guarded e calls) (hmore : Vouched e calls ∨ Guarded e more) :
    Guarded e (calls ++ more) := by
  intro before l command reply after heq
  rcases split_append heq with ⟨rest, hcalls, _⟩ | ⟨first, hfirst, rfl⟩
  · exact h before l command reply rest hcalls
  · rcases hmore with hv | hg
    · exact hv.append first
    · exact (hg first l command reply after hfirst).prepend calls

namespace Runner

variable {r r' : Runner τ} {added : List (PlaneCall τ)}

theorem Creates.mem_created {l : Link} {id : EnvironmentId} (h : Creates l added (.ok id)) :
    id ∈ added.filterMap created? := by
  cases h with
  | created => simp

theorem fresh_append {first : List (PlaneCall τ)} :
    (r.owns = true → e ∉ (first ++ added).filterMap created?) ↔
      (r.owns = true → e ∉ first.filterMap created?) ∧ (r.owns = true → e ∉ added.filterMap created?) := by
  simp only [List.filterMap_append, List.mem_append, not_or, imp_and]

theorem Starts.held {out : Except (Failure τ) Unit} (h : Starts r added r' out)
    (hfresh : r.owns = true → e ∉ added.filterMap created?) (he : r'.environment = some e) :
    Vouched e added ∨ r.environment = some e := by
  cases h with
  | up | failed | absent => exact .inr he
  | created _ ho hc =>
    obtain rfl := Option.some.inj he
    exact absurd hc.mem_created (hfresh ho)
  | attached =>
    obtain rfl := Option.some.inj he
    exact .inl ⟨r.link, List.mem_cons_self⟩

theorem Requires.held {out : Except (Failure τ) EnvironmentId} (h : Requires r added r' out)
    (hfresh : r.owns = true → e ∉ added.filterMap created?) (he : r'.environment = some e) :
    Vouched e added ∨ r.environment = some e := by
  cases h with
  | closed => exact .inr he
  | up _ hs | down _ hs => exact hs.held hfresh he

theorem Starts.owned_only {out : Except (Failure τ) Unit} (h : Starts r added r' out) (ho : r.owns = true) :
    Only [.create] added := by
  cases h with
  | up => exact .nil _
  | created _ _ hc | failed _ _ hc => exact hc.only
  | attached _ hn | absent _ hn => simp [ho] at hn

theorem Requires.owned_only {out : Except (Failure τ) EnvironmentId} (h : Requires r added r' out)
    (ho : r.owns = true) : Only [.create] added := by
  cases h with
  | closed => exact .nil _
  | up _ hs | down _ hs => exact hs.owned_only ho

variable [Seconds τ]

theorem Verifies.held {out : Except (Failure τ) Unit} (h : Verifies r added r' out)
    (hfresh : r.owns = true → e ∉ added.filterMap created?) (he : r'.environment = some e) :
    Vouched e added ∨ r.environment = some e ∧ r'.suspect = r.suspect ∧ (out = .ok () → r.suspect = false) := by
  cases h with
  | trusted h => exact .inr ⟨he, rfl, fun _ => h.resolve_right (by simp [he])⟩
  | alive _ hid =>
    obtain rfl := Option.some.inj (hid.symm.trans he)
    exact .inl ⟨r.link, List.mem_cons_self⟩
  | unreachable | gone => exact .inr ⟨he, rfl, nofun⟩
  | stuck | unreplaced => cases he
  | replaced _ _ ho _ hc =>
    obtain rfl := Option.some.inj he
    exact absurd (by simpa [List.filterMap_cons] using hc.mem_created) (hfresh ho)

theorem Readies.held {out : Except (Failure τ) EnvironmentId} (h : Readies r added r' out)
    (hfresh : r.owns = true → e ∉ added.filterMap created?) (he : r'.environment = some e) :
    Vouched e added ∨
      r.environment = some e ∧ r'.suspect = r.suspect ∧ ∀ id, out = .ok id → r.suspect = false := by
  cases h with
  | unverified hv => exact (hv.held hfresh he).imp_right fun h => ⟨h.1, h.2.1, nofun⟩
  | verified hv hq =>
    obtain ⟨hfirst, hmore⟩ := fresh_append.mp hfresh
    rcases hq.held (hv.keeps.owns ▸ hmore) he with hv' | he
    · exact .inl (hv'.prepend _)
    · refine (hv.held hfirst he).imp (·.append _) fun h => ⟨h.1, hq.suspect.trans h.2.1, fun _ _ => h.2.2 rfl⟩

theorem Verifies.kept {out : Except (Failure τ) Unit} (h : Verifies r added r' out) (ho : r.owns = true)
    (hfresh : e ∉ added.filterMap created?) (he : r'.environment = some e) :
    r.environment = some e ∧ ¬ Missed e added := by
  cases h with
  | trusted | alive | unreachable => exact ⟨he, by simp [Missed]⟩
  | gone _ _ hn => simp [ho] at hn
  | stuck | unreplaced => cases he
  | replaced _ _ _ _ hc =>
    obtain rfl := Option.some.inj he
    exact absurd (by simpa using hc.mem_created) hfresh

theorem Verifies.missed_held {out : Except (Failure τ) Unit} (h : Verifies r added r' out)
    (hm : Missed e added) : r.environment = some e := by
  obtain ⟨l, hm⟩ := hm
  cases h with
  | trusted => cases hm
  | alive | unreachable => simp at hm
  | gone _ he | stuck _ he =>
    obtain ⟨-, rfl⟩ : l = r.link ∧ e = _ := by simpa using hm
    exact he
  | unreplaced _ he _ _ hc | replaced _ he _ _ hc =>
    rcases List.mem_cons.mp hm with hm | hm
    · cases hm
      exact he
    · rcases List.mem_cons.mp hm with hm | hm
      · cases hm
      · simpa [PlaneCall.op] using hc.only _ hm

theorem Readies.kept {out : Except (Failure τ) EnvironmentId} (h : Readies r added r' out) (ho : r.owns = true)
    (hfresh : e ∉ added.filterMap created?) (he : r'.environment = some e) :
    r.environment = some e ∧ ¬ Missed e added := by
  cases h with
  | unverified hv => exact hv.kept ho hfresh he
  | verified hv hq =>
    rw [List.filterMap_append, List.mem_append, not_or] at hfresh
    have ho₁ := hv.keeps.owns.trans ho
    have hmore := hq.owned_only ho₁
    have he := (hq.held (fun _ => hfresh.2) he).resolve_left fun ⟨_, hm⟩ => by
      simpa [PlaneCall.op] using hmore _ hm
    obtain ⟨he, hmissed⟩ := hv.kept ho hfresh.1 he
    exact ⟨he, by simp [missed_append, hmissed, hmore.not_missed]⟩

theorem Readies.missed_held {out : Except (Failure τ) EnvironmentId} (h : Readies r added r' out)
    (ho : r.owns = true) (hm : Missed e added) : r.environment = some e := by
  cases h with
  | unverified hv => exact hv.missed_held hm
  | verified hv hq =>
    have hmore := hq.owned_only (hv.keeps.owns.trans ho)
    exact hv.missed_held ((missed_append.mp hm).resolve_right (hmore.not_missed (by simp)))

inductive Course (r : Runner τ) (added : List (PlaneCall τ)) (r' : Runner τ) (out : Except (Failure τ) Unit) : Prop
  | quiet (hq : Only [.memoryUsage, .remove, .close] added)
      (he : r'.environment = r.environment ∨ r'.environment = none) (hs : r'.suspect = r.suspect)
  | started {first more reply} (hs : Starts r first r' reply) (hadded : added = first ++ more)
      (hmore : Only [.inject] more) (hout : ∀ f, reply = .error f → out = .error f)
  | readied {reply} (hr : Readies r added r' reply) (hout : ∀ f, reply = .error f → out = .error f)
  | ran {first r₁ id l command reply after} (hr : Readies r first r₁ (.ok id))
      (hadded : added = first ++ .exec l id command reply :: after) (hafter : Only [.terminate] after)
      (he : r'.environment = some id)

theorem Injects.course {source : Raw} {out : Except (Failure τ) Unit} (h : Injects source r added r' out) :
    Course r added r' out := by
  cases h with
  | down hq =>
    cases hq with
    | closed => exact .quiet (.nil _) (.inl rfl) rfl
    | down _ hs => exact .started hs (List.append_nil _).symm (.nil _) fun _ => id
  | unpacked hq =>
    cases hq with
    | up _ hs => exact .started hs (List.append_nil _).symm (.nil _) nofun
  | delivered hq =>
    cases hq with
    | up _ hs => exact .started hs rfl (by simp [Only, PlaneCall.op]) nofun

theorem Runs.course {out : Except (Failure τ) RunOutcome} (h : Runs r added r' out) :
    Course r added r' (out.map fun _ => ()) := by
  cases h with
  | down hr => exact .readied hr fun _ hf => by cases hf; rfl
  | unready hr => exact .readied hr nofun
  | failed hr hx | finished hr hx =>
    obtain ⟨reply, after, rfl, hafter⟩ := hx.exec_first
    exact .ran hr rfl hafter (hx.environment.trans hr.environment)

theorem Asks.course {α : Type} {out : Except (Failure τ) α} (h : Asks r added r' out) :
    Course r added r' (out.map fun _ => ()) := by
  cases h with
  | down hr => exact .readied hr fun _ hf => by cases hf; rfl
  | unready hr => exact .readied hr nofun
  | asked hr => exact .ran hr rfl (.nil _) hr.environment

theorem Performs.course {u : Use ω τ} {out : Except (Failure τ) Unit} (h : Performs r u added r' out) :
    Course r added r' out := by
  cases h with
  | start h => exact .started h (List.append_nil _).symm (.nil _) fun _ => id
  | inject h => exact h.course
  | run h => exact h.course
  | toolchainVersion h => exact h.course
  | validateToolchain h =>
    have hout : (out.map fun _ => ()) = out := by cases out <;> rfl
    exact hout ▸ h.course
  | memoryUsage h hr => exact .quiet (h.only.mono (by simp)) (.inl (hr ▸ rfl)) (hr ▸ rfl)
  | close h =>
    refine .quiet (h.only.mono (by simp)) ?_ ?_ <;> cases h <;> simp
  | outside => exact .quiet (.nil _) (.inl rfl) rfl

section

variable {out : Except (Failure τ) Unit}

theorem Course.guarded (h : Course r added r' out) (hfresh : r.owns = true → e ∉ added.filterMap created?)
    (hw : r.environment = some e → r.suspect = true) :
    Guarded e added ∧ (Vouched e added ∨ (r'.environment = some e → r'.suspect = true)) := by
  cases h with
  | quiet hq he hs =>
    refine ⟨.of_not_occupied (hq.not_occupied (by simp)), .inr fun h => ?_⟩
    rcases he with he | he
    · exact hs.trans (hw (he.symm.trans h))
    · cases he.symm.trans h
  | started hs hadded hmore =>
    subst hadded
    have hidle : ¬ (Occupied e _ ∨ Occupied e _) :=
      not_or.mpr ⟨hs.only.not_occupied (by simp), hmore.not_occupied (by simp)⟩
    refine ⟨.of_not_occupied (occupied_append.not.mpr hidle), or_iff_not_imp_left.mpr fun hv he => ?_⟩
    have he := (hs.held (fresh_append.mp hfresh).1 he).resolve_left fun h => hv (h.append _)
    exact hs.suspect.trans (hw he)
  | readied hr =>
    refine ⟨.of_not_occupied (hr.only.not_occupied (by simp)), or_iff_not_imp_left.mpr fun hv he => ?_⟩
    obtain ⟨he, hs, _⟩ := (hr.held hfresh he).resolve_left hv
    exact hs.trans (hw he)
  | @ran first r₁ id l command reply after hr hadded hafter he =>
    subst hadded
    have hfirst : Guarded e first := .of_not_occupied (hr.only.not_occupied (by simp))
    by_cases hid : id = e
    · -- The runner was not suspect any more when the command was run.
      subst hid
      have hv := (hr.held (fresh_append.mp hfresh).1 hr.environment).resolve_right fun ⟨he, _, hs⟩ => by
        simpa [hw he] using hs id rfl
      exact ⟨hfirst.append (.inl hv), .inl (hv.append _)⟩
    · have hidle : ¬ Occupied e (.exec l id command reply :: after) := fun h => hid (h.of_exec hafter)
      refine ⟨hfirst.append (.inr (.of_not_occupied hidle)), .inr fun h => ?_⟩
      exact absurd (Option.some.inj (he.symm.trans h)) hid

theorem Course.kept (h : Course r added r' out) (ho : r.owns = true) (hfresh : e ∉ added.filterMap created?)
    (he : r'.environment = some e ∨ Occupied e added) : r.environment = some e ∧ ¬ Missed e added := by
  cases h with
  | quiet hq hsame =>
    have he := he.resolve_right (hq.not_occupied (by simp))
    refine ⟨hsame.resolve_right (fun hnone => ?_) ▸ he, hq.not_missed (by simp)⟩
    cases hnone.symm.trans he
  | started hs hadded hmore =>
    subst hadded
    have hfirst := hs.owned_only ho
    rw [occupied_append] at he
    have he := he.resolve_right (not_or.mpr ⟨hfirst.not_occupied (by simp), hmore.not_occupied (by simp)⟩)
    have hheld := hs.held (fresh_append.mp fun _ => hfresh).1 he
    refine ⟨hheld.resolve_left fun ⟨_, hm⟩ => by simpa [PlaneCall.op] using hfirst _ hm, ?_⟩
    exact missed_append.not.mpr (not_or.mpr ⟨hfirst.not_missed (by simp), hmore.not_missed (by simp)⟩)
  | readied hr => exact hr.kept ho hfresh (he.resolve_right (hr.only.not_occupied (by simp)))
  | @ran first r₁ id l command reply after hr hadded hafter hid =>
    subst hadded
    have hused : id = e := by
      rcases he with he | he
      · exact Option.some.inj (hid.symm.trans he)
      · exact ((occupied_append.mp he).resolve_left (hr.only.not_occupied (by simp))).of_exec hafter
    subst hused
    obtain ⟨he, hmissed⟩ := hr.kept ho (fresh_append.mp (fun _ => hfresh) |>.1 ho) hr.environment
    exact ⟨he, missed_append.not.mpr (not_or.mpr ⟨hmissed, not_missed_exec hafter⟩)⟩

theorem Course.missed_held (h : Course r added r' out) (ho : r.owns = true) (hm : Missed e added) :
    r.environment = some e := by
  cases h with
  | quiet hq => exact absurd hm (hq.not_missed (by simp))
  | started hs hadded hmore =>
    subst hadded
    exact absurd hm (missed_append.not.mpr
      (not_or.mpr ⟨(hs.owned_only ho).not_missed (by simp), hmore.not_missed (by simp)⟩))
  | readied hr => exact hr.missed_held ho hm
  | ran hr hadded hafter =>
    subst hadded
    exact hr.missed_held ho ((missed_append.mp hm).resolve_right (not_missed_exec hafter))

end

section

variable {α : Type}

def Gone (e : EnvironmentId) (out : Except (Failure τ) α) : Prop :=
  ∃ message, out = .error (.controlPlane message (some e))

omit [Seconds τ] in
theorem Starts.of_attached {out : Except (Failure τ) Unit} (h : Starts r added r' out) (ho : r.owns = false) :
    (r'.environment = some e → r.environment = some e ∨ e = r.settings.containerName) ∧
      (Missed e added → Gone e out) := by
  cases h with
  | up => exact ⟨.inl, fun ⟨_, hm⟩ => nomatch hm⟩
  | created _ hn | failed _ hn => simp [ho] at hn
  | attached => exact ⟨fun he => .inr (Option.some.inj he).symm, fun ⟨_, hm⟩ => by simp at hm⟩
  | absent _ _ hr =>
    refine ⟨.inl, ?_⟩
    rintro ⟨l, hm⟩
    obtain ⟨-, rfl, rfl⟩ : l = r.link ∧ e = _ ∧ Except.ok false = _ := by simpa using hm
    obtain ⟨message, rfl⟩ := (hr.resolve_left nofun).2
    exact ⟨message, rfl⟩

omit [Seconds τ] in
theorem Requires.of_attached {out : Except (Failure τ) EnvironmentId} (h : Requires r added r' out)
    (ho : r.owns = false) :
    (r'.environment = some e → r.environment = some e ∨ e = r.settings.containerName) ∧
      (Missed e added → Gone e out) := by
  cases h with
  | closed => exact ⟨.inl, fun ⟨_, hm⟩ => nomatch hm⟩
  | up _ hs => exact (hs.of_attached ho).imp_right fun h hm => nomatch (h hm).choose_spec
  | down _ hs =>
    refine (hs.of_attached ho).imp_right fun h hm => ?_
    obtain ⟨message, hout⟩ := h hm
    exact ⟨message, by rw [Except.error.inj hout]⟩

theorem Verifies.of_attached {out : Except (Failure τ) Unit} (h : Verifies r added r' out)
    (ho : r.owns = false) (hd : ∀ id, r.environment = some id → ∃ t, id.display = .ok t) :
    r'.environment = r.environment ∧ (Missed e added → Gone e out) := by
  cases h with
  | trusted => exact ⟨rfl, fun ⟨_, hm⟩ => nomatch hm⟩
  | alive | unreachable => exact ⟨rfl, fun ⟨_, hm⟩ => by simp at hm⟩
  | gone _ he _ hmessage =>
    refine ⟨rfl, ?_⟩
    rintro ⟨l, hm⟩
    obtain ⟨-, rfl⟩ : l = r.link ∧ e = _ := by simpa using hm
    obtain ⟨message, rfl⟩ := hmessage (hd _ he)
    exact ⟨message, rfl⟩
  | stuck _ _ hn | unreplaced _ _ hn | replaced _ _ hn => simp [ho] at hn

theorem Readies.of_attached {out : Except (Failure τ) EnvironmentId} (h : Readies r added r' out)
    (ho : r.owns = false) (hd : ∀ id, r.environment = some id → ∃ t, id.display = .ok t) :
    (r'.environment = some e → r.environment = some e ∨ e = r.settings.containerName) ∧
      (Missed e added → Gone e out) := by
  cases h with
  | unverified hv =>
    obtain ⟨he, hgone⟩ := hv.of_attached (e := e) ho hd
    refine ⟨fun h => .inl (he ▸ h), fun hm => ?_⟩
    obtain ⟨message, hout⟩ := hgone hm
    exact ⟨message, by rw [Except.error.inj hout]⟩
  | verified hv hq =>
    obtain ⟨he, hgone⟩ := hv.of_attached (e := e) ho hd
    have hstarted := hq.of_attached (e := e) (hv.keeps.owns.trans ho)
    rw [he, hv.keeps.settings] at hstarted
    refine hstarted.imp_right fun h hm => h ((missed_append.mp hm).resolve_left fun hm => ?_)
    obtain ⟨_, hout⟩ := hgone hm
    cases hout

theorem Course.of_attached {out : Except (Failure τ) Unit} (h : Course r added r' out) (ho : r.owns = false)
    (hd : ∀ id, r.environment = some id → ∃ t, id.display = .ok t) :
    (r'.environment = some e → r.environment = some e ∨ e = r.settings.containerName) ∧
      (Missed e added → Gone e out ∧ ∀ c ∈ added, c.op ≠ .exec) := by
  cases h with
  | quiet hq he =>
    refine ⟨fun h => .inl ?_, fun hm => absurd hm (hq.not_missed (by simp))⟩
    rcases he with he | he
    · exact he.symm.trans h
    · cases he.symm.trans h
  | started hs hadded hmore hout =>
    subst hadded
    refine (hs.of_attached ho).imp_right fun h hm => ?_
    obtain ⟨message, rfl⟩ := h ((missed_append.mp hm).resolve_right (hmore.not_missed (by simp)))
    refine ⟨⟨message, hout _ rfl⟩, fun c hc hop => ?_⟩
    rcases List.mem_append.mp hc with hc | hc
    · simpa [hop] using hs.only c hc
    · simpa [hop] using hmore c hc
  | readied hr hout =>
    refine (hr.of_attached ho hd).imp_right fun h hm => ?_
    obtain ⟨message, rfl⟩ := h hm
    exact ⟨⟨message, hout _ rfl⟩, fun c hc hop => by simpa [hop] using hr.only c hc⟩
  | ran hr hadded hafter he =>
    subst hadded
    obtain ⟨hheld, hgone⟩ := hr.of_attached (e := e) ho hd
    refine ⟨fun h => hheld (hr.environment.trans (he.symm.trans h)), fun hm => ?_⟩
    obtain ⟨_, hout⟩ := hgone ((missed_append.mp hm).resolve_right (not_missed_exec hafter))
    cases hout

end

variable {u : Use ω τ} {uses : List (Use ω τ)} {calls : List (PlaneCall τ)}

theorem Lives.guarded (h : Lives r uses calls r') (hfresh : r.owns = true → e ∉ calls.filterMap created?)
    (hw : r.environment = some e → r.suspect = true) :
    Guarded e calls ∧ (Vouched e calls ∨ (r'.environment = some e → r'.suspect = true)) := by
  -- As long as no look found `e` running, a runner that has it is suspect.
  induction h with
  | unused => exact ⟨.of_not_occupied ((PlaneCall.Only.nil []).not_occupied (by simp)), .inr hw⟩
  | used h hu ih =>
    obtain ⟨hcalls, hadded⟩ := fresh_append.mp hfresh
    obtain ⟨hg, hv | hw⟩ := ih hcalls
    · exact ⟨hg.append (.inl hv), .inl (hv.append _)⟩
    · obtain ⟨hg', hlast⟩ := hu.course.guarded (h.owns ▸ hadded) hw
      exact ⟨hg.append (.inr hg'), hlast.imp_left (·.prepend _)⟩

structure Traced (r : Runner τ) (calls : List (PlaneCall τ)) : Prop where
  held {e : EnvironmentId} : r.environment = some e → e ∈ calls.filterMap created? ∧ ¬ Missed e calls
  made {e : EnvironmentId} : Missed e calls → e ∈ calls.filterMap created?
  spared {e : EnvironmentId} {l : Link} {before after : List (PlaneCall τ)} :
    calls = before ++ .isRunning l e (.ok false) :: after → ¬ Occupied e after

theorem Performs.traced {out : Except (Failure τ) Unit} (hu : Performs r u added r' out) (ho : r.owns = true)
    (ht : Traced r calls) (hn : ((calls ++ added).filterMap created?).Nodup) : Traced r' (calls ++ added) := by
  have hc := hu.course
  rw [List.filterMap_append] at hn
  have hfresh {e : EnvironmentId} (h : e ∈ calls.filterMap created?) : e ∉ added.filterMap created? :=
    fun h' => (List.nodup_append.mp hn).2.2 e h e h' rfl
  have hmade {e : EnvironmentId} (h : Missed e added) : e ∈ calls.filterMap created? :=
    (ht.held (hc.missed_held ho h)).1
  refine ⟨fun {e} he => ?_, fun {e} hm => ?_, fun {e l before after} heq hoc => ?_⟩
  · rw [List.filterMap_append, List.mem_append, missed_append, not_or]
    by_cases hnew : e ∈ added.filterMap created?
    · -- What was missed was made before this use, and nothing is made twice.
      exact ⟨.inr hnew, fun h => hfresh (ht.made h) hnew, fun h => hfresh (hmade h) hnew⟩
    · obtain ⟨he, hmissed⟩ := hc.kept ho hnew (.inl he)
      exact ⟨.inl (ht.held he).1, (ht.held he).2, hmissed⟩
  · rw [List.filterMap_append, List.mem_append]
    exact .inl ((missed_append.mp hm).elim ht.made hmade)
  · rcases split_append heq with ⟨rest, hcalls, rfl⟩ | ⟨first, hfirst, _⟩
    · have hmissed : Missed e calls := ⟨l, hcalls ▸ by simp⟩
      rcases occupied_append.mp hoc with hoc | hoc
      · exact ht.spared hcalls hoc
      · obtain ⟨he, _⟩ := hc.kept ho (hfresh (ht.made hmissed)) (.inr hoc)
        exact (ht.held he).2 hmissed
    · have hmissed : Missed e added := ⟨l, hfirst ▸ by simp⟩
      obtain ⟨i, command, reply, hm⟩ := hoc
      have hoc : Occupied e added := ⟨i, command, reply, hfirst ▸ by simp [hm]⟩
      exact (hc.kept ho (hfresh (hmade hmissed)) (.inr hoc)).2 hmissed

omit [Seconds τ] in
theorem Traced.unused (hnone : r.environment = none) : Traced r [] :=
  ⟨by simp [hnone], by simp [Missed], by simp⟩

theorem Lives.traced (h : Lives r uses added r') (ho : r.owns = true) (ht : Traced r calls)
    (hn : ((calls ++ added).filterMap created?).Nodup) : Traced r' (calls ++ added) := by
  induction h with
  | unused => rwa [List.append_nil]
  | used h hu ih =>
    rw [← List.append_assoc] at hn ⊢
    refine hu.traced (h.owns.trans ho) (ih ?_) hn
    rw [List.filterMap_append] at hn
    exact (List.nodup_append.mp hn).1

theorem Lives.attached {plane : ControlPlane ω τ} (h : Lives r uses calls r') (hl : plane.Legible r.settings)
    (ho : r.owns = false) (hnone : r.environment = none) {id : EnvironmentId} (he : r'.environment = some id) :
    id = r.settings.containerName := by
  induction h generalizing id with
  | unused => cases hnone.symm.trans he
  | used h hu ih =>
    have hd := (hl.attached ho).2
    have hheld := (hu.course.of_attached (h.owns.trans ho) fun id hid => ih hid ▸ hd).1 he
    exact hheld.elim ih (h.settings ▸ ·)

theorem Performs.run_timed_out {out : Except (Failure τ) Unit} {l : Link} {command : Command τ} {f : Failure τ}
    {first rest : List (PlaneCall τ)} (h : Performs r u added r' out) (hu : u.isRun = true)
    (hadded : added = first ++ .exec l e command (.error f) :: rest) (ht : f.isA .timeout = true) :
    Only [.terminate] rest ∧ r'.environment = some e ∧ r'.suspect = true := by
  have hm : .exec l e command (.error f) ∈ added := hadded ▸ by simp
  cases h with
  | run h =>
    obtain ⟨before, reply, hends, honly, he, hs, _⟩ := h.timed_out hm ht
    refine ⟨?_, he, hs⟩
    rcases split_append (hends.symm.trans hadded) with ⟨middle, rfl, _⟩ | ⟨middle, hlast, _⟩
    · simpa [PlaneCall.op] using honly (.exec l e command (.error f)) (by simp)
    · rcases middle with _ | ⟨c, _ | ⟨d, middle⟩⟩
      · obtain ⟨_, rfl⟩ := List.cons.inj hlast
        simp [Only, PlaneCall.op]
      · simp at hlast
      · simp at hlast
  | _ => cases hu

end Runner

/-- Between a run that timed out in an environment and the next command there, it was found to be running.
An owned environment that was found not to be running is not run in again; if an attached one was found
so, the use fails with a failure that names it, and runs nothing. -/
theorem reuse_guarded [Seconds τ] [Clock ω τ] {plane : ControlPlane ω τ} {settings : Settings τ}
    {key : SessionKey} (hk : ∃ t, key.display = .ok t) (hp : plane.Legible settings) (link : Link)
    (env : Env ω τ) (before : List (Use ω τ)) (u : Use ω τ) (after : List (Use ω τ)) :
    let s := (Seat.new settings key link env).after plane before
    let ran := u.act plane s
    let last := ran.2.after plane after
    ∃ added more, ran.2.env.world.calls = s.env.world.calls ++ added ∧
      last.env.world.calls = ran.2.env.world.calls ++ more ∧
      ((last.env.world.calls.filterMap created?).Nodup →
        (u.isRun = true → ∀ first l e command f rest, added = first ++ .exec l e command (.error f) :: rest →
          f.isA .timeout = true → Guarded e (rest ++ more)) ∧
        (settings.ownsEnvironment = true → ∀ first l e rest,
          last.env.world.calls = first ++ .isRunning l e (.ok false) :: rest → ¬ Occupied e rest) ∧
        (settings.ownsEnvironment = false → ∀ e, Missed e added →
          Runner.Gone e ran.1 ∧ ∀ c ∈ added, c.op ≠ .exec)) := by
  intro s ran last
  have hl := Seat.new_legible hk hp link env
  obtain ⟨calls, hcalls, hlives⟩ := Seat.after_lives hl before
  have hcalls : s.env.world.calls = calls := hcalls
  obtain ⟨added, hadded, hu⟩ := Use.act_does (hlives.legible hl) u
  have hadded : ran.2.env.world.calls = s.env.world.calls ++ added := hadded
  obtain ⟨more, hmore, hlater⟩ := Seat.after_lives (s := ran.2) (hu.legible (hlives.legible hl)) after
  have hran := hlives.used hu
  have hmore : last.env.world.calls = (calls ++ added) ++ more := by rw [← hcalls, ← hadded]; exact hmore
  have htraced (ho : settings.ownsEnvironment = true) (hn : ((calls ++ added).filterMap created?).Nodup) :
      Runner.Traced ran.2.runner (calls ++ added) := hran.traced ho (.unused rfl : Runner.Traced _ []) hn
  refine ⟨added, more, hadded, by rw [hmore, hadded, hcalls], fun hn => ?_⟩
  rw [hmore] at hn
  have hsplit := hn
  rw [List.filterMap_append] at hsplit
  obtain ⟨hfirst, -, hdisjoint⟩ := List.nodup_append.mp hsplit
  refine ⟨?_, ?_, ?_⟩
  · intro hrun first l e command f rest hends ht
    obtain ⟨hrest, he, hs⟩ := hu.run_timed_out hrun hends ht
    -- An owner's `e` is made by now, so no later use makes it again.
    have hfresh (ho : ran.2.runner.owns = true) : e ∉ more.filterMap created? := fun hm =>
      hdisjoint e ((htraced (hran.owns.symm.trans ho) hfirst).held he).1 e hm rfl
    exact .append (.of_not_occupied (hrest.not_occupied (by simp))) (.inr (hlater.guarded hfresh fun _ => hs).1)
  · intro ho first l e rest hends
    exact (hlater.traced (hran.owns.trans ho) (htraced ho hfirst) hn).spared (hmore.symm.trans hends)
  · intro ho e hmissed
    refine (hu.course.of_attached (hlives.owns.trans ho) fun id hid => ?_).2 hmissed
    exact hlives.attached hp ho rfl hid ▸ (hp.attached ho).2

theorem reuse_guarded_stalled :
    let s : Seat (Recorded Script Double) Double := .new Script.settings (.text "k") 0 { world := Script.stalled }
    let ran := Use.act Script.plane (.run false none) s
    let last := ran.2.after Script.plane [.run false none]
    ∃ first l e command f rest more,
      ran.2.env.world.calls = first ++ .exec l e command (.error f) :: rest ∧ f.isA .timeout = true ∧
      last.env.world.calls = ran.2.env.world.calls ++ more ∧ Guarded e (rest ++ more) ∧
      ∃ c ∈ more, c.op = .exec := by
  have hexec : ∃ c ∈ (Use.act Script.plane (.run false none) (.new Script.settings (.text "k") 0
      { world := Script.stalled })).2.env.world.calls, ∃ f ∈ c.broke?, f.isA .timeout = true := by
    decide +kernel
  have hagain : ∃ c ∈ ((Use.act Script.plane (.run false none) (.new Script.settings (.text "k") 0
      { world := Script.stalled })).2.after Script.plane [.run false none]).env.world.calls.drop
        (Use.act Script.plane (.run false none) (.new Script.settings (.text "k") 0
          { world := Script.stalled })).2.env.world.calls.length, c.op = .exec := by
    decide +kernel
  have hnodup : (((Use.act Script.plane (.run false none) (.new Script.settings (.text "k") 0
      { world := Script.stalled })).2.after Script.plane
        [.run false none]).env.world.calls.filterMap created?).Nodup := by
    decide +kernel
  intro s ran last
  have hkey : ∃ t, Value.display (.text "k") = .ok t := ⟨"k", rfl⟩
  obtain ⟨added, more, hadded, hmore, h⟩ := reuse_guarded hkey Script.legible 0 { world := Script.stalled } []
    (.run false none) [.run false none]
  have hadded : ran.2.env.world.calls = added := hadded
  have hmore : last.env.world.calls = ran.2.env.world.calls ++ more := hmore
  obtain ⟨c, hm, f, hf, ht⟩ := hexec
  obtain ⟨l, e, command, rfl⟩ := PlaneCall.eq_of_broke? hf
  obtain ⟨first, rest, hsplit⟩ := List.append_of_mem (show _ ∈ added from hadded ▸ hm)
  refine ⟨first, l, e, command, f, rest, more, hadded.trans hsplit, ht, hmore,
    (h hnodup).1 rfl first l e command f rest hsplit ht, ?_⟩
  have hagain : ∃ c ∈ last.env.world.calls.drop ran.2.env.world.calls.length, c.op = .exec := hagain
  rwa [hmore, List.drop_left] at hagain

end Playpen
