import Zeroboot.Theory.Apiserver

/-!
# Manifests among Others

What a run of the script has done to an apiserver that others use at the same
time.

A run is looked at in two ways. Step by step, whether it got to its end or not:
a step of the script's own changes nothing, or has a manifest taken where there
was no object or one that was read and not written since. And line by line,
when it got to its end: `Api.Reported` is what the line about one manifest says
of the part of the run it was printed in, and `Api.Goes` puts the parts
together.

## Main definitions

* `Api.Right`: What the script may do in a step.
* `Api.Reported`, `Api.Goes`: A line and its part of the run, and all of them.
* `Apart`, `Api.Left`: Manifests of different objects, which the others leave
  alone.

## Theorems

* `applyAll_step`: The loop does nothing else in any step.
* `applyAll_done`: The lines it prints are the ones of its run.
* `Api.Goes.in_place`: What was applied is there in the end.
* `applyAll_frame`: And other objects are as they were.
-/

namespace Zeroboot.Manifests

section Safety

variable {S O : Type} {A : Api S O} {P : Python} {base : String} {s s' s1 s2 : S}
  {past ls : List (Option (Request × Reply))} {q : Request} {r : Reply} {obj : Py} {name : String}

/-- What the script does to the server in a step: nothing, or it has a manifest
    taken, where there was no object or one that it has read. -/
def Api.Right (A : Api S O) (P : Python) (base : String) (obj : Py) (s : S)
    (past : List (Option (Request × Reply))) (s1 s2 : S) : Prop :=
  ∃ t, target P base obj = .ok t ∧ A.Takes s1 t.url obj s2 ∧
    (A.versions.live s1 t.url = none ∨ A.ReadSince s past t.url s1)

theorem Api.Right.before (h : Trace A.Steps s ls s') {ls' : List (Option (Request × Reply))}
    (hright : A.Right P base obj s' ls' s1 s2) : A.Right P base obj s (ls ++ ls') s1 s2 := by
  rcases hright with ⟨t, ht, htakes, hnew | hread⟩
  · exact ⟨t, ht, htakes, Or.inl hnew⟩
  · exact ⟨t, ht, htakes, Or.inr (hread.before h)⟩

theorem replace_step (hA : A.Lawful) {t : Target} (ht : target P base obj = .ok t)
    {next : Reply → Client Request Reply (Except Ended Line)}
    (hrun : Trace (Client.Acts A.serves A.others) (s, replace obj t) past (s1, .ask q next))
    (hq : A.serves s1 q r s2) : A.Same s1 s2 ∨ A.Right P base obj s past s1 s2 := by
  unfold replace at hrun
  -- The first question only reads, and the second is the one that may write.
  rcases Client.asked hrun with ⟨hask, _⟩ | ⟨wait, r0, s3, s4, ls', rfl, hwait, hget, hrest⟩
  · rw [(Client.ask.inj hask).1] at hq
    exact Or.inl (hA.get hq)
  rcases r0 with live | ⟨code, body⟩ | e
  · rcases hset : liveVersion live >>= setVersion obj with e | obj'
    · simp only [hset] at hrest
      exact absurd (Client.finished hrest).1 (by simp only [reduceCtorEq, not_false_eq_true])
    · simp only [hset] at hrest
      rcases Client.asked hrest with ⟨hask, hquiet⟩ |
        ⟨wait', r1, s5, s6, ls2, rfl, hwait', hput, hend⟩
      · -- The object is about to be replaced, with the version that was read.
        rw [(Client.ask.inj hask).1] at hq
        rcases bind_ok hset with ⟨v, hl, hset'⟩
        rcases hA.read hget with ⟨w, o, _, hversion⟩
        rw [hl] at hversion
        rw [Except.ok.inj hversion] at hset' hl
        rcases hA.put hq (liveVersion_setVersion hset') with ⟨hsame, _⟩ | ⟨⟨o1, hlive⟩, htakes, _⟩
        · exact Or.inl hsame
        · refine Or.inr ⟨t, ht, ⟨?_, htakes.2⟩, Or.inr ?_⟩
          · rw [← hA.settles hset']
            exact htakes.1
          · exact hA.readSince (Api.steps_of_idle hwait) hget hl hquiet hlive
      · rcases r1 with _ | ⟨_, _⟩ | _
        all_goals
          exact absurd (Client.finished hend).1 (by simp only [reduceCtorEq, not_false_eq_true])
  · exact absurd (Client.finished hrest).1 (by simp only [reduceCtorEq, not_false_eq_true])
  · exact absurd (Client.finished hrest).1 (by simp only [reduceCtorEq, not_false_eq_true])

theorem applyOne_step (hA : A.Lawful) (hname : nameOf obj = some name)
    {next : Reply → Client Request Reply (Except Ended Line)}
    (hrun : Trace (Client.Acts A.serves A.others) (s, applyOne P base obj) past
      (s1, .ask q next))
    (hq : A.serves s1 q r s2) : A.Same s1 s2 ∨ A.Right P base obj s past s1 s2 := by
  unfold applyOne at hrun
  rcases ht : target P base obj with e | t
  · simp only [ht] at hrun
    exact absurd (Client.finished hrun).1 (by simp only [reduceCtorEq, not_false_eq_true])
  · simp only [ht] at hrun
    rcases Client.asked hrun with ⟨hask, _⟩ | ⟨wait, r0, s3, s4, ls', rfl, hwait, hpost, hrest⟩
    · -- The manifest is about to be created.
      rw [(Client.ask.inj hask).1] at hq
      rcases hA.post hq hname with ⟨hsame, _⟩ | ⟨hnew, htakes, _⟩
      · exact Or.inl hsame
      · rw [← target_name ht hname] at hnew htakes
        exact Or.inr ⟨t, ht, htakes, Or.inl hnew⟩
    · rcases r0 with _ | ⟨code, body⟩ | e
      · exact absurd (Client.finished hrest).1 (by simp only [reduceCtorEq, not_false_eq_true])
      · by_cases hcode : code ≠ 409
        · simp only [if_pos hcode] at hrest
          exact absurd (Client.finished hrest).1 (by simp only [reduceCtorEq, not_false_eq_true])
        · -- A conflict, so the run goes on with the replacement.
          simp only [if_neg hcode] at hrest
          have hfront : Trace A.Steps s (wait ++
              [some ({ method := .post, url := t.coll, body := some obj },
                .httpError code body)]) s4 :=
            (Api.steps_of_idle hwait).append (.single hpost)
          rcases replace_step hA ht hrest hq with hsame | hright
          · exact Or.inl hsame
          · have hall := hright.before hfront
            rw [List.append_assoc] at hall
            exact Or.inr hall
      · exact absurd (Client.finished hrest).1 (by simp only [reduceCtorEq, not_false_eq_true])

/-- No step of the loop is anything else. -/
theorem applyAll_step (hA : A.Lawful) {documents : List (Except Ended Py)} {printed : List Line}
    {failures : Nat} (hnamed : ∀ obj, .ok obj ∈ documents → (nameOf obj).isSome)
    {next : Reply → Client Request Reply (List Line × Except Ended Nat)}
    (hrun : Trace (Client.Acts A.serves A.others) (s, applyAll P base documents printed failures)
      past (s1, .ask q next))
    (hq : A.serves s1 q r s2) :
    A.Same s1 s2 ∨ ∃ obj, .ok obj ∈ documents ∧ A.Right P base obj s past s1 s2 := by
  -- On the documents: the step is one of the first manifest, or of a later one.
  induction documents generalizing s past printed failures with
  | nil => exact absurd (Client.finished hrun).1 (by simp only [reduceCtorEq, not_false_eq_true])
  | cons d rest ih =>
      rcases d with e | obj
      · exact absurd (Client.finished hrun).1 (by simp only [reduceCtorEq, not_false_eq_true])
      · rcases Option.isSome_iff_exists.mp (hnamed obj List.mem_cons_self) with ⟨name, hname⟩
        rcases Client.bound hrun with ⟨q', next', hask, hone⟩ |
          ⟨ls1, ls2, s3, a, rfl, hdone, hafter⟩
        · rw [(Client.ask.inj hask).1] at hq
          exact (applyOne_step hA hname hone hq).imp_right fun hright =>
            ⟨obj, List.mem_cons_self, hright⟩
        · rcases a with e | line
          · exact absurd (Client.finished hafter).1
              (by simp only [reduceCtorEq, not_false_eq_true])
          · rcases ih (fun o ho => hnamed o (List.mem_cons_of_mem _ ho)) hafter with
              hsame | ⟨o, ho, hright⟩
            · exact Or.inl hsame
            · exact Or.inr ⟨o, List.mem_cons_of_mem _ ho, hright.before (Api.steps_of_acts hdone)⟩

end Safety

/-! ## What a run has done -/

section Runs

variable {S O : Type} {A : Api S O} {P : Python} {base : String} {s s' s1 s2 : S}
  {ls : List (Option (Request × Reply))} {q : Request} {r : Reply} {obj : Py} {name : String}
  {us : String → Prop}

/-- Somewhere in the run the server took the manifest, and the script did
    nothing to it before and nothing after. -/
def Api.Taken (A : Api S O) (s : S) (ls : List (Option (Request × Reply))) (url : String) (obj : Py)
    (s' : S) : Prop :=
  ∃ past q r quiet s1 s2, ls = past ++ some (q, r) :: quiet ∧
    Trace (A.Only fun _ => False) s past s1 ∧ A.serves s1 q r s2 ∧ A.Takes s1 url obj s2 ∧
    Trace (Client.Idle A.others) s2 quiet s'

theorem Api.Taken.before {url : String} {past : List (Option (Request × Reply))}
    (h : Trace (A.Only fun _ => False) s past s1) (htaken : A.Taken s1 ls url obj s') :
    A.Taken s (past ++ ls) url obj s' := by
  rcases htaken with ⟨past', q, r, quiet, s2, s3, rfl, hpast, hq, htakes, hquiet⟩
  exact ⟨past ++ past', q, r, quiet, s2, s3, (List.append_assoc _ _ _).symm, h.append hpast, hq,
    htakes, hquiet⟩

/-- What a line about a manifest says of the run that printed it. The object of
    the manifest is the only one that was touched. It was taken if the line
    says so, and nothing was touched if the server refused it. -/
structure Api.Reported (A : Api S O) (s : S) (url : String) (obj : Py)
    (ls : List (Option (Request × Reply))) (line : Line) (s' : S) : Prop where
  confined : Trace (A.Only (· = url)) s ls s'
  taken : line.applied = true → A.Taken s ls url obj s'
  refused : ∀ kind name code body, line = .failed kind name code body → code < 500 →
    Trace (A.Only fun _ => False) s ls s'

section Reports

variable {url : String} {past quiet : List (Option (Request × Reply))} {line : Line} {cond : Prop}

theorem only_of_same (hsame : A.Same s1 s2) (hq : A.serves s1 q r s2) :
    A.Only us s1 (some (q, r)) s2 :=
  ⟨hq, fun _ url _ => hsame url⟩

theorem Api.Reported.before (hfront : ∀ us, Trace (A.Only us) s past s1)
    (h : A.Reported s1 url obj ls line s') : A.Reported s url obj (past ++ ls) line s' where
  confined := (hfront _).append h.confined
  taken hline := (h.taken hline).before (hfront _)
  refused kind name code body hline hcode :=
    (hfront _).append (h.refused kind name code body hline hcode)

/-- A manifest that failed, and nothing was touched. -/
theorem reported_of_same (hall : ∀ us, Trace (A.Only us) s ls s') (hline : line.applied = false) :
    A.Reported s url obj ls line s' where
  confined := hall _
  taken h := absurd (hline.symm.trans h) Bool.false_ne_true
  refused _ _ _ _ _ _ := hall _

/-- A write that was confirmed was done. -/
theorem reported_of_confirmed {body : Py} (hdecides : A.Decides s url obj cond (.ok body) s1)
    (hq : A.serves s q (.ok body) s1) (hquiet : Trace (Client.Idle A.others) s1 quiet s')
    (hline : line.applied = true) : A.Reported s url obj (some (q, .ok body) :: quiet) line s' := by
  have htakes : A.Takes s url obj s1 := by
    rcases hdecides with ⟨_, hnot⟩ | ⟨_, htakes, _⟩
    · exact absurd rfl (hnot body)
    · exact htakes
  refine ⟨.next ⟨hq, fun _ other hother => htakes.2 other hother⟩ (Api.Only.idle hquiet), ?_, ?_⟩
  · intro _
    exact ⟨[], q, .ok body, quiet, s, s1, rfl, .done s, hq, htakes, hquiet⟩
  · rintro kind name code body rfl _
    exact absurd hline (by simp only [Line.applied, Bool.false_eq_true, not_false_eq_true])

/-- A write that failed was refused, or it is not known what became of it. -/
theorem reported_of_failed {kind name : String} {code : Nat} {body : List UInt8}
    (hdecides : A.Decides s url obj cond (.httpError code body) s1)
    (hq : A.serves s q (.httpError code body) s1)
    (hquiet : Trace (Client.Idle A.others) s1 quiet s') :
    A.Reported s url obj (some (q, .httpError code body) :: quiet) (.failed kind name code body)
      s' := by
  refine ⟨.next ⟨hq, ?_⟩ (Api.Only.idle hquiet), ?_, ?_⟩
  · intro _ other hother
    rcases hdecides with ⟨hsame, _⟩ | ⟨_, htakes, _⟩
    · exact hsame other
    · exact htakes.2 other hother
  · intro happlied
    exact absurd happlied (by simp only [Line.applied, Bool.false_eq_true, not_false_eq_true])
  · intro _ _ _ _ hline hcode
    rcases Line.failed.inj hline with ⟨_, _, rfl, _⟩
    rcases hdecides with ⟨hsame, _⟩ | ⟨_, _, hserver⟩
    · exact .next (only_of_same hsame hq) (Api.Only.idle hquiet)
    · have hge : 500 ≤ code := hserver code body rfl
      omega

/-- Replacing an object, from the line that is printed about it. -/
theorem replace_done (hA : A.Lawful) {t : Target}
    (hrun : Trace (Client.Acts A.serves A.others) (s, replace obj t) ls (s', .done (.ok line))) :
    A.Reported s t.url obj ls line s' := by
  unfold replace at hrun
  rcases Client.asked hrun with ⟨hask, _⟩ | ⟨wait, r0, s3, s4, ls', rfl, hwait, hget, hrest⟩
  · exact absurd hask (by simp only [reduceCtorEq, not_false_eq_true])
  -- Reading it changes nothing, and what others do meanwhile is theirs.
  have hread : ∀ us, Trace (A.Only us) s (wait ++ [some (_, r0)]) s4 := fun us =>
    (Api.Only.idle hwait).append (.single (only_of_same (hA.get hget) hget))
  rw [← List.singleton_append, ← List.append_assoc]
  refine Api.Reported.before hread ?_
  rcases r0 with live | ⟨code, body⟩ | e
  · rcases hset : liveVersion live >>= setVersion obj with e | obj'
    · simp only [hset] at hrest
      exact absurd (Client.finished hrest).1
        (by simp only [Client.done.injEq, reduceCtorEq, not_false_eq_true])
    simp only [hset] at hrest
    rcases Client.asked hrest with ⟨hask, _⟩ | ⟨wait', r1, s5, s6, ls2, rfl, hwait', hput, hend⟩
    · exact absurd hask (by simp only [reduceCtorEq, not_false_eq_true])
    refine Api.Reported.before (fun us => Api.Only.idle hwait') ?_
    rcases bind_ok hset with ⟨v, hl, hset'⟩
    rcases hA.read hget with ⟨w, o, _, hversion⟩
    rw [hl] at hversion
    rw [Except.ok.inj hversion] at hset'
    have hdecides := hA.put hput (liveVersion_setVersion hset')
    -- It is the manifest that was taken, whatever version it had in it.
    have hmanifest :
        A.Decides s5 t.url obj (∃ o, A.versions.live s5 t.url = some (w, o)) r1 s6 := by
      refine hdecides.imp_right fun h => ⟨h.1, ⟨?_, h.2.1.2⟩, h.2.2⟩
      rw [← hA.settles hset']
      exact h.2.1.1
    rcases r1 with body | ⟨code, body⟩ | e
    · rcases Client.finished hend with ⟨hline, hidle⟩
      rw [Except.ok.inj (Client.done.inj hline)]
      exact reported_of_confirmed hmanifest hput hidle rfl
    · rcases Client.finished hend with ⟨hline, hidle⟩
      rw [Except.ok.inj (Client.done.inj hline)]
      exact reported_of_failed hmanifest hput hidle
    · exact absurd (Client.finished hend).1
        (by simp only [Client.done.injEq, reduceCtorEq, not_false_eq_true])
  · rcases Client.finished hrest with ⟨hline, hidle⟩
    rw [Except.ok.inj (Client.done.inj hline)]
    exact reported_of_same (fun us => Api.Only.idle hidle) rfl
  · exact absurd (Client.finished hrest).1
      (by simp only [Client.done.injEq, reduceCtorEq, not_false_eq_true])

theorem applyOne_done (hA : A.Lawful) (hname : nameOf obj = some name)
    (hrun : Trace (Client.Acts A.serves A.others) (s, applyOne P base obj) ls
      (s', .done (.ok line))) :
    ∃ t, target P base obj = .ok t ∧ A.Reported s t.url obj ls line s' := by
  unfold applyOne at hrun
  rcases ht : target P base obj with e | t
  · simp only [ht] at hrun
    exact absurd (Client.finished hrun).1
      (by simp only [Client.done.injEq, reduceCtorEq, not_false_eq_true])
  simp only [ht] at hrun
  refine ⟨t, rfl, ?_⟩
  rcases Client.asked hrun with ⟨hask, _⟩ | ⟨wait, r0, s3, s4, ls', rfl, hwait, hpost, hrest⟩
  · exact absurd hask (by simp only [reduceCtorEq, not_false_eq_true])
  refine Api.Reported.before (fun us => Api.Only.idle hwait) ?_
  have hdecides := hA.post hpost hname
  rw [← target_name ht hname] at hdecides
  rcases r0 with body | ⟨code, body⟩ | e
  · rcases Client.finished hrest with ⟨hline, hidle⟩
    rw [Except.ok.inj (Client.done.inj hline)]
    exact reported_of_confirmed hdecides hpost hidle rfl
  · by_cases hcode : code ≠ 409
    · simp only [if_pos hcode] at hrest
      rcases Client.finished hrest with ⟨hline, hidle⟩
      rw [Except.ok.inj (Client.done.inj hline)]
      exact reported_of_failed hdecides hpost hidle
    · -- A conflict is a refusal, so there is nothing to replace but what was there.
      simp only [if_neg hcode] at hrest
      have hsame : A.Same s3 s4 := by
        rcases hdecides with ⟨hsame, _⟩ | ⟨_, _, hserver⟩
        · exact hsame
        · have hge : 500 ≤ code := hserver code body rfl
          omega
      rw [← List.singleton_append]
      exact (replace_done hA hrest).before fun us => .single (only_of_same hsame hpost)
  · exact absurd (Client.finished hrest).1
      (by simp only [Client.done.injEq, reduceCtorEq, not_false_eq_true])

end Reports

/-! ## The whole script -/

/-- A run of the loop to its end, one manifest after the other. -/
inductive Api.Goes (A : Api S O) (P : Python) (base : String) :
    S → List (Except Ended Py) → List (Option (Request × Reply)) → List Line → S → Prop where
  | done {s s' : S} {ls : List (Option (Request × Reply))}
      (idle : Trace (Client.Idle A.others) s ls s') : Goes A P base s [] ls [] s'
  | next {s s1 s' : S} {obj : Py} {rest : List (Except Ended Py)}
      {ls1 ls2 : List (Option (Request × Reply))} {line : Line} {lines : List Line} {t : Target}
      (ht : target P base obj = .ok t) (first : A.Reported s t.url obj ls1 line s1)
      (others : Goes A P base s1 rest ls2 lines s') :
      Goes A P base s (.ok obj :: rest) (ls1 ++ ls2) (line :: lines) s'

section Script

variable {documents : List (Except Ended Py)} {lines printed : List Line} {failures n : Nat}

theorem applyAll_done (hA : A.Lawful) (hnamed : ∀ obj, .ok obj ∈ documents → (nameOf obj).isSome)
    (hrun : Trace (Client.Acts A.serves A.others) (s, applyAll P base documents printed failures) ls
      (s', .done (lines, .ok n))) :
    ∃ new, lines = printed ++ new ∧ A.Goes P base s documents ls new s' ∧
      n = failures + new.countP (fun line => !line.applied) := by
  -- On the documents, each of which prints one line.
  induction documents generalizing s ls printed failures with
  | nil =>
      rcases Client.finished hrun with ⟨hend, hidle⟩
      rcases Prod.mk.inj (Client.done.inj hend) with ⟨rfl, hn⟩
      exact ⟨[], (List.append_nil _).symm, .done hidle, Except.ok.inj hn⟩
  | cons d rest ih =>
      rcases d with e | obj
      · rcases Prod.mk.inj (Client.done.inj (Client.finished hrun).1) with ⟨_, hn⟩
        exact absurd hn (by simp only [reduceCtorEq, not_false_eq_true])
      · rcases Option.isSome_iff_exists.mp (hnamed obj List.mem_cons_self) with ⟨name, hname⟩
        rcases Client.bound hrun with ⟨q', next', hask, _⟩ | ⟨ls1, ls2, s3, a, rfl, hdone, hafter⟩
        · exact absurd hask (by simp only [Client.bind, reduceCtorEq, not_false_eq_true])
        · rcases a with e | line
          · rcases Prod.mk.inj (Client.done.inj (Client.finished hafter).1) with ⟨_, hn⟩
            exact absurd hn (by simp only [reduceCtorEq, not_false_eq_true])
          · rcases applyOne_done hA hname hdone with ⟨t, ht, hreported⟩
            rcases ih (fun o ho => hnamed o (List.mem_cons_of_mem _ ho)) hafter with
              ⟨new, rfl, hgoes, hcount⟩
            refine ⟨line :: new, ?_, .next ht hreported hgoes, ?_⟩
            · rw [List.append_assoc, List.singleton_append]
            · rw [hcount, List.countP_cons]
              rcases line.applied
              · simp only [Bool.false_eq_true, if_false, Bool.not_false, if_true]
                omega
              · simp only [if_true, Bool.not_true, Bool.false_eq_true, if_false, Nat.add_zero]

/-- Two manifests that are not about one object. -/
def Apart (P : Python) (base : String) (d d' : Except Ended Py) : Prop :=
  ∀ obj obj' t t', d = .ok obj → d' = .ok obj' → target P base obj = .ok t →
    target P base obj' = .ok t' → t.url ≠ t'.url

/-- The others leave the objects of these manifests alone. -/
def Api.Left (A : Api S O) (P : Python) (base : String) (documents : List (Except Ended Py)) :
    Prop :=
  ∀ obj t, .ok obj ∈ documents → target P base obj = .ok t →
    ∀ a b, A.others a b → A.versions.live b t.url = A.versions.live a t.url

/-- An object that is no manifest's, and that the others leave alone. -/
theorem Api.Goes.frame {url : String} (h : A.Goes P base s documents ls lines s')
    (hurl : ∀ obj t, .ok obj ∈ documents → target P base obj = .ok t → t.url ≠ url)
    (hothers : ∀ a b, A.others a b → A.versions.live b url = A.versions.live a url) :
    A.versions.live s' url = A.versions.live s url := by
  induction h with
  | done idle => exact Api.idle_frame idle hothers
  | @next s s1 s' obj rest ls1 ls2 line lines t ht first _ ih =>
      rw [ih fun o t ho ht => hurl o t (List.mem_cons_of_mem _ ho) ht]
      exact Api.Only.frame first.confined (Ne.symm (hurl obj t List.mem_cons_self ht)) hothers

/-- A manifest that was applied is what the object is in the end. -/
theorem Api.Goes.in_place (h : A.Goes P base s documents ls lines s')
    (happlied : ∀ line ∈ lines, line.applied = true) (hapart : documents.Pairwise (Apart P base))
    (hleft : A.Left P base documents) {t : Target} (hobj : .ok obj ∈ documents)
    (ht : target P base obj = .ok t) :
    ∃ w, A.versions.live s' t.url =
      some (w, A.settles ((A.versions.live s t.url).map Prod.snd) obj) := by
  induction h with
  | done _ => exact absurd hobj List.not_mem_nil
  | @next s s1 s' obj1 rest ls1 ls2 line lines t1 ht1 first hrest ih =>
      rcases List.pairwise_cons.mp hapart with ⟨hfirst, hothers⟩
      have hleft' : A.Left P base rest := fun o t ho => hleft o t (List.mem_cons_of_mem _ ho)
      have halone := hleft obj t hobj ht
      rcases List.mem_cons.mp hobj with heq | hmem
      · -- It is taken now, and nothing touches it later.
        rw [← Except.ok.inj heq, ht] at ht1
        rw [← Except.ok.inj ht1, ← Except.ok.inj heq] at first
        rcases first.taken (happlied line List.mem_cons_self) with
          ⟨past, q, r, quiet, s2, s3, _, hpast, _, ⟨⟨w, hw⟩, _⟩, hquiet⟩
        rw [Api.Only.frame hpast not_false halone] at hw
        refine ⟨w, ?_⟩
        rw [hrest.frame (fun o t' ho ht' => ?_) halone,
          Api.idle_frame hquiet halone, hw]
        exact Ne.symm (hfirst _ ho obj o t t' heq.symm rfl ht ht')
      · rcases ih (fun l hl => happlied l (List.mem_cons_of_mem _ hl)) hothers hleft' hmem with
          ⟨w, hw⟩
        have hne : t1.url ≠ t.url := hfirst _ hmem obj1 obj t1 t rfl rfl ht1 ht
        rw [Api.Only.frame first.confined (Ne.symm hne) halone] at hw
        exact ⟨w, hw⟩

/-- The loop leaves every other object alone, however it ends. -/
theorem applyAll_frame (hA : A.Lawful)
    (hnamed : ∀ obj, .ok obj ∈ documents → (nameOf obj).isSome) {url : String}
    {p' : Client Request Reply (List Line × Except Ended Nat)}
    (hrun : Trace (Client.Acts A.serves A.others) (s, applyAll P base documents printed failures) ls
      (s', p'))
    (hurl : ∀ obj t, .ok obj ∈ documents → target P base obj = .ok t → t.url ≠ url)
    (hothers : ∀ a b, A.others a b → A.versions.live b url = A.versions.live a url) :
    A.versions.live s' url = A.versions.live s url := by
  by_contra hne
  -- The step that changed it would be one of the others, or have a manifest taken.
  rcases Trace.first_change (fun x => A.versions.live x.1 url) hrun hne with
    ⟨past, l, behind, ⟨s1, p1⟩, ⟨s2, p2⟩, rfl, hpast, hact, _, hsame, hdiff⟩
  cases hact with
  | other hother => exact hdiff ((hothers _ _ hother).trans hsame)
  | answer hq =>
      rcases applyAll_step hA hnamed hpast hq with hkept | ⟨obj, hobj, t, ht, htakes, _⟩
      · exact hdiff ((hkept url).trans hsame)
      · exact hdiff ((htakes.2 url (Ne.symm (hurl obj t hobj ht))).trans hsame)

variable {F : Files} {doc prog url path : String} {paths : List String} {fin : Finish}

/-- A run of the script to its end is one of its loop, and it exits with
    success just when no manifest failed. -/
theorem main_done
    (hrun : Trace (Client.Acts A.serves A.others)
      (s, main P F doc (prog :: url :: path :: paths)) ls (s', .done fin)) :
    ∃ ls1 ls2 s1 lines result, ls = ls1 ++ ls2 ∧
      Trace (Client.Acts A.serves A.others)
        (s, applyAll P (rstripSlash url) (docs F (path :: paths)) [] 0) ls1
        (s1, .done (lines, result)) ∧
      Trace (Client.Idle A.others) s1 ls2 s' ∧ (fin.code = 0 ↔ result = .ok 0) := by
  unfold main at hrun
  rcases Client.bound hrun with ⟨q', next', hask, _⟩ | ⟨ls1, ls2, s1, a, rfl, hdone, hafter⟩
  · exact absurd hask (by simp only [Client.bind, reduceCtorEq, not_false_eq_true])
  · rcases a with ⟨lines, result⟩
    rcases Client.finished hafter with ⟨hfin, hidle⟩
    refine ⟨ls1, ls2, s1, lines, result, rfl, hdone, hidle, ?_⟩
    rw [Client.done.inj hfin]
    rcases result with e | n
    · exact iff_of_false Nat.one_ne_zero (by simp only [reduceCtorEq, not_false_eq_true])
    · rcases n with _ | n
      · exact iff_of_true rfl rfl
      · refine iff_of_false Nat.one_ne_zero fun h => ?_
        exact absurd (Except.ok.inj h) (Nat.succ_ne_zero n)

/-- A run of the script that exits with success has every manifest in place. -/
theorem main_in_place (hA : A.Lawful)
    (hnamed : ∀ obj, .ok obj ∈ docs F (path :: paths) → (nameOf obj).isSome)
    (hapart : (docs F (path :: paths)).Pairwise (Apart P (rstripSlash url)))
    (hleft : A.Left P (rstripSlash url) (docs F (path :: paths)))
    (hrun : Trace (Client.Acts A.serves A.others)
      (s, main P F doc (prog :: url :: path :: paths)) ls (s', .done fin))
    (hcode : fin.code = 0) {t : Target} (hobj : .ok obj ∈ docs F (path :: paths))
    (ht : target P (rstripSlash url) obj = .ok t) :
    ∃ w, A.versions.live s' t.url =
      some (w, A.settles ((A.versions.live s t.url).map Prod.snd) obj) := by
  rcases main_done hrun with ⟨ls1, ls2, s1, lines, result, rfl, hdone, hidle, hiff⟩
  rw [hiff.mp hcode] at hdone
  rcases applyAll_done hA hnamed hdone with ⟨new, _, hgoes, hcount⟩
  -- No failures were counted, so every line says applied.
  have happlied : ∀ line ∈ new, line.applied = true := by
    intro line hline
    have hzero : new.countP (fun line => !line.applied) = 0 := by omega
    simpa only [Bool.not_eq_true', Bool.not_eq_false] using List.countP_eq_zero.mp hzero line hline
  rcases hgoes.in_place happlied hapart hleft hobj ht with ⟨w, hw⟩
  refine ⟨w, ?_⟩
  rw [Api.idle_frame hidle (hleft obj t hobj ht), hw]

end Script

end Runs

end Zeroboot.Manifests
