import Zeroboot.Theory.Manifests

/-!
# The Script That Applies Manifests

What can be relied on when the manifests of a cluster are applied.

That nobody's update is lost rests on the versions alone. Between the script's
reading an object and its replacing it, the others may have had their way with
the server as often as they liked; the object is still the one it read. An exit
with success means that every manifest is in place, when the others leave their
objects alone, and then the script can be run again, and again.

## Main definitions

* `Api.Ran`: A run of the script to its end.
* `Named`: Manifests with a name and a place to go.
* `Mine`: The objects that are theirs.
* `Api.Accepts`, `Api.Welcome`: A server that takes the manifests.

## Theorems

* `Shelf.runs`: On the shelf the script gets to its end.
* `script_loses_nothing`: The script overwrites only what it has read.
* `script_in_place`: What an exit with success means.
* `script_reruns`: The script can be run again.
-/

namespace Zeroboot.Manifests

/-- A run of the script to its end. -/
def Api.Ran {S O : Type} (A : Api S O) (P : Python) (F : Files) (doc : String)
    (argv : List String) (a : S) (fin : Finish) (b : S) : Prop :=
  ∃ ls, Trace (Client.Acts A.serves A.others) (a, main P F doc argv) ls (b, .done fin)

/-! ## On the shelf -/

section OnShelf

variable {kept : String → Prop} {P : Python} {base : String} {s : Shelf} {obj : Py} {name : String}
  {t : Target}

/-- On the shelf, a manifest of an object that is not there is created. -/
theorem Shelf.creates (ht : target P base obj = .ok t) (hname : nameOf obj = some name)
    (hnone : s.objects t.url = none) :
    Trace (Client.Acts (Shelf.api kept).serves (Shelf.api kept).others) (s, applyOne P base obj)
      [some ({ method := .post, url := t.coll, body := some obj }, .ok obj)]
      (s.store t.url obj, .done (.ok (.created t.kind t.name))) := by
  have hurl : t.url = t.coll ++ "/" ++ name := by
    unfold Target.url
    rw [target_name ht hname]
  have hserve : s.serve { method := .post, url := t.coll, body := some obj } =
      (s.store t.url obj, .ok obj) := by
    have hnot : ¬ (s.objects (t.coll ++ "/" ++ name)).isSome = true := by
      rw [← hurl, hnone]
      exact Bool.false_ne_true
    simp only [Shelf.serve, hname, if_neg hnot, hurl]
  unfold applyOne
  simp only [ht]
  exact .single (.answer hserve)

/-- And of one that is there, it is read first. -/
theorem Shelf.reads (kept : String → Prop) (ht : target P base obj = .ok t)
    (hname : nameOf obj = some name) {n : Nat} {old : Py}
    (hthere : s.objects t.url = some (n, old)) :
    ∃ obj' next, setVersion obj (.str (Nat.repr n)) = .ok obj' ∧
      Trace (Client.Acts (Shelf.api kept).serves (Shelf.api kept).others) (s, applyOne P base obj)
        [some ({ method := .post, url := t.coll, body := some obj }, .httpError 409 []),
          some ({ method := .get, url := t.url, body := none },
            .ok (Shelf.withVersion old (Nat.repr n)))]
        (s, .ask { method := .put, url := t.url, body := some obj' } next) ∧
      ∀ body, next (.ok body) = .done (.ok (.replaced t.kind t.name)) := by
  have hurl : t.url = t.coll ++ "/" ++ name := by
    unfold Target.url
    rw [target_name ht hname]
  rcases setVersion_of_nameOf hname (.str (Nat.repr n)) with ⟨obj', hset⟩
  -- The name is taken, and what has it is handed out with its version.
  have hpost : s.serve { method := .post, url := t.coll, body := some obj } =
      (s, .httpError 409 []) := by
    have hsome : (s.objects (t.coll ++ "/" ++ name)).isSome = true := by
      rw [← hurl, hthere]
      rfl
    simp only [Shelf.serve, hname, if_pos hsome]
  have hget : s.serve { method := .get, url := t.url, body := none } =
      (s, .ok (Shelf.withVersion old (Nat.repr n))) := by
    simp only [Shelf.serve, hthere]
  have hboth : (liveVersion (Shelf.withVersion old (Nat.repr n)) >>= setVersion obj) =
      .ok obj' := by
    rw [Shelf.liveVersion_withVersion]
    exact hset
  refine ⟨obj', ?_, hset, ?_, ?_⟩
  rotate_left
  · unfold applyOne replace
    simp only [ht]
    refine .next (.answer hpost) ?_
    simp only [ne_eq, not_true_eq_false, if_false]
    refine .next (.answer hget) ?_
    simp only [hboth]
    exact .done _
  · exact fun _ => rfl

theorem Shelf.put_eq {n : Nat} {old obj' : Py} {url : String}
    (hthere : s.objects url = some (n, old))
    (hset : setVersion obj (.str (Nat.repr n)) = .ok obj') :
    s.serve { method := .put, url := url, body := some obj' } = (s.store url obj', .ok obj') := by
  simp only [Shelf.serve, hthere, Shelf.swap, liveVersion_setVersion hset, if_true]

/-- One way or the other, a manifest that has a name is applied. -/
theorem Shelf.applies (kept : String → Prop) (s : Shelf) (ht : target P base obj = .ok t)
    (hname : nameOf obj = some name) : ∃ ls s' line,
      Trace (Client.Acts (Shelf.api kept).serves (Shelf.api kept).others) (s, applyOne P base obj)
        ls (s', .done (.ok line)) := by
  rcases hobject : s.objects t.url with _ | ⟨n, old⟩
  · exact ⟨_, _, _, creates ht hname hobject⟩
  · rcases reads kept ht hname hobject with ⟨obj', next, hset, hrun, hnext⟩
    have hput := hrun.append (.single (.answer (put_eq hobject hset)))
    rw [hnext] at hput
    exact ⟨_, _, _, hput⟩

/-- Documents that were read without an exception, each a manifest with a name
    and a place to go. -/
def Named (P : Python) (base : String) (documents : List (Except Ended Py)) : Prop :=
  ∀ d ∈ documents, ∃ obj name t, d = .ok obj ∧ nameOf obj = some name ∧
    target P base obj = .ok t

theorem Named.isSome {documents : List (Except Ended Py)} (h : Named P base documents) :
    ∀ obj, .ok obj ∈ documents → (nameOf obj).isSome := by
  intro obj hobj
  rcases h _ hobj with ⟨o, name, t, ho, hname, _⟩
  rw [Except.ok.inj ho, hname]
  rfl

/-- So the loop gets to its end. -/
theorem Shelf.applies_all (kept : String → Prop) {documents : List (Except Ended Py)}
    (hnamed : Named P base documents) (s : Shelf) (printed : List Line) (failures : Nat) :
    ∃ ls s' result, Trace (Client.Acts (Shelf.api kept).serves (Shelf.api kept).others)
      (s, applyAll P base documents printed failures) ls (s', .done result) := by
  induction documents generalizing s printed failures with
  | nil => exact ⟨_, _, _, .done _⟩
  | cons d rest ih =>
      rcases hnamed d List.mem_cons_self with ⟨obj, name, t, rfl, hname, ht⟩
      rcases applies kept s ht hname with ⟨ls, s1, line, hone⟩
      rcases ih (fun d hd => hnamed d (List.mem_cons_of_mem _ hd)) s1 (printed ++ [line])
        (if line.applied then failures else failures + 1) with ⟨ls', s2, result, hrest⟩
      exact ⟨_, _, _, (Client.bind_run hone _).append hrest⟩

/-- And so does the script. -/
theorem Shelf.runs (kept : String → Prop) {F : Files} {doc prog url path : String}
    {paths : List String} (hnamed : Named P (rstripSlash url) (docs F (path :: paths)))
    (s : Shelf) :
    ∃ fin s', (Shelf.api kept).Ran P F doc (prog :: url :: path :: paths) s fin s' := by
  rcases applies_all kept hnamed s [] 0 with ⟨ls, s', result, hrun⟩
  exact ⟨_, _, _, Client.bind_run hrun _⟩

/-- The others leave the objects of these manifests alone, if they leave alone
    what is kept, and these are. -/
def Mine (P : Python) (base : String) (documents : List (Except Ended Py)) (url : String) : Prop :=
  ∃ obj t, .ok obj ∈ documents ∧ target P base obj = .ok t ∧ t.url = url

theorem Shelf.left (P : Python) (base : String) (documents : List (Except Ended Py)) :
    (Shelf.api (Mine P base documents)).Left P base documents := by
  intro obj t hobj ht a b hothers
  rw [live_eq, live_eq]
  exact congrArg _ (hothers.2 t.url ⟨obj, t, hobj, ht, rfl⟩)

theorem apart_of_targets {obj' : Py} {t' : Target} (ht : target P base obj = .ok t)
    (ht' : target P base obj' = .ok t') (hne : t.url ≠ t'.url) :
    Apart P base (.ok obj) (.ok obj') := by
  intro o o' u u' ho ho' hu hu'
  rw [← Except.ok.inj ho, ht, Except.ok.injEq] at hu
  rw [← Except.ok.inj ho', ht', Except.ok.injEq] at hu'
  rwa [← hu, ← hu']

end OnShelf

/-! ## Manifests of a namespace, an account and a role -/

def storm : Py :=
  .dict [ ("apiVersion", .str "v1"), ("kind", .str "Namespace"),
    ("metadata", .dict [("name", .str "storm")]) ]

/-- An account of the same name, in the namespace that is not mentioned. -/
def account : Py :=
  .dict [ ("apiVersion", .str "v1"), ("kind", .str "ServiceAccount"),
    ("metadata", .dict [("name", .str "storm")]) ]

/-- A role for it, in a group that is not the core one. -/
def clusterRole : Py :=
  .dict [ ("apiVersion", .str "rbac.authorization.k8s.io/v1"), ("kind", .str "ClusterRole"),
    ("metadata", .dict [("name", .str "storm")]) ]

def python : Python where
  str _ := ""
  repr _ := ""
  reprBytes _ := ""

/-- A file with the three manifests. -/
def stormFile : Files where
  isDir _ := false
  glob _ := []
  load _ := ([storm, account, clusterRole], none)

def apiUrl : String := "http://127.0.0.1:6443"

def stormTarget (base : String) : Target where
  kind := "Namespace"
  name := "storm"
  coll := base ++ "/api/" ++ "v1" ++ "/" ++ "namespaces"

theorem target_storm (base : String) : target python base storm = .ok (stormTarget base) := by
  rfl

theorem nameOf_storm : nameOf storm = some "storm" := by
  rfl

theorem docs_storm :
    docs stormFile ["ns.yaml"] = [.ok storm, .ok account, .ok clusterRole] := by
  rfl

theorem mem_storm {obj : Py} (h : obj ∈ [storm, account, clusterRole]) :
    .ok obj ∈ docs stormFile ["ns.yaml"] := by
  rw [docs_storm]
  exact List.mem_map_of_mem (f := Except.ok) h

def bareShelf : Shelf where
  next := 0
  objects _ := none
  past h := absurd h (by simp only [reduceCtorEq, not_false_eq_true])

theorem named_storm : Named python (rstripSlash apiUrl) (docs stormFile ["ns.yaml"]) := by
  rw [docs_storm]
  intro d hd
  simp only [List.mem_cons, List.not_mem_nil, or_false] at hd
  rcases hd with rfl | rfl | rfl
  · exact ⟨storm, "storm", _, rfl, rfl, rfl⟩
  · exact ⟨account, "storm", _, rfl, rfl, rfl⟩
  · exact ⟨clusterRole, "storm", _, rfl, rfl, rfl⟩

theorem apart_storm :
    (docs stormFile ["ns.yaml"]).Pairwise (Apart python (rstripSlash apiUrl)) := by
  rw [docs_storm]
  refine .cons ?_ (.cons ?_ (List.pairwise_singleton _ _))
  · intro d hd
    simp only [List.mem_cons, List.not_mem_nil, or_false] at hd
    rcases hd with rfl | rfl
    · exact apart_of_targets rfl rfl (by decide)
    · exact apart_of_targets rfl rfl (by decide)
  · intro d hd
    rw [List.mem_singleton.mp hd]
    exact apart_of_targets rfl rfl (by decide)

/-- The URL of that namespace. -/
def stormUrl : String := (stormTarget (rstripSlash apiUrl)).url

/-- What another client asks while the script waits. -/
def otherRequest : Request where
  method := .post
  url := "http://127.0.0.1:6443/api/v1/nodes"
  body := some storm

theorem serve_other {s : Shelf} (h : s.objects "http://127.0.0.1:6443/api/v1/nodes/storm" = none) :
    (s.serve otherRequest).1 = s.store "http://127.0.0.1:6443/api/v1/nodes/storm" storm := by
  have hurl : "http://127.0.0.1:6443/api/v1/nodes" ++ "/" ++ "storm" =
      "http://127.0.0.1:6443/api/v1/nodes/storm" := by
    decide
  have hnot : ¬ (s.objects "http://127.0.0.1:6443/api/v1/nodes/storm").isSome = true := by
    rw [h]
    exact Bool.false_ne_true
  simp only [Shelf.serve, otherRequest, nameOf_storm, hurl, if_neg hnot]

/-- A shelf with the namespace on it, before and after the other write. -/
def stormShelf : Shelf := bareShelf.store stormUrl storm

theorem nodes_ne : "http://127.0.0.1:6443/api/v1/nodes/storm" ≠ stormUrl := by
  decide

/-- The loop behind the manifest. -/
def afterStorm (r : Except Ended Line) : Client Request Reply (List Line × Except Ended Nat) :=
  match r with
  | .error e => .done ([], .error e)
  | .ok line => applyAll python (rstripSlash apiUrl) [.ok account, .ok clusterRole] ([] ++ [line])
      (if line.applied then 0 else 0 + 1)

theorem main_storm {kept : String → Prop} {s s' : Shelf} {ls : List (Option (Request × Reply))}
    {p : Client Request Reply (Except Ended Line)}
    (h : Trace (Client.Acts (Shelf.api kept).serves (Shelf.api kept).others)
      (s, applyOne python (rstripSlash apiUrl) storm) ls (s', p)) :
    Trace (Client.Acts (Shelf.api kept).serves (Shelf.api kept).others)
      (s, main python stormFile "" ["apply-manifests.py", apiUrl, "ns.yaml"]) ls
      (s', (p.bind afterStorm).bind fun r => .done (finish python r)) :=
  Client.bind_run (Client.bind_run h afterStorm) _

/-! ## Among others -/

section Script

variable {S O : Type} {A : Api S O} {P : Python} {base : String} {s s' s1 s2 : S}
  {ls : List (Option (Request × Reply))} {q : Request} {r : Reply} {obj : Py} {name : String}
  {F : Files} {doc prog url path : String} {paths : List String} {fin : Finish}

/-- At no time does the script overwrite what it has not read. Whatever it does
    to the objects, it does by having a manifest taken, and then there was no
    object, or one that it had read and that nobody wrote since. -/
theorem script_loses_nothing (hA : A.Lawful)
    (hnamed : ∀ obj, .ok obj ∈ docs F (path :: paths) → (nameOf obj).isSome)
    {past : List (Option (Request × Reply))} {next : Reply → Client Request Reply Finish}
    (hrun : Trace (Client.Acts A.serves A.others) (s, main P F doc (prog :: url :: path :: paths))
      past (s1, .ask q next))
    (hq : A.serves s1 q r s2) :
    A.Same s1 s2 ∨ ∃ obj, .ok obj ∈ docs F (path :: paths) ∧
      A.Right P (rstripSlash url) obj s past s1 s2 := by
  unfold main at hrun
  rcases Client.bound hrun with ⟨q', next', hask, hloop⟩ | ⟨ls1, ls2, s3, a, rfl, hdone, hafter⟩
  · rw [(Client.ask.inj hask).1] at hq
    exact applyAll_step hA hnamed hloop hq
  · exact absurd (Client.finished hafter).1 (by simp only [reduceCtorEq, not_false_eq_true])

/-- The namespace is there, the script reads it, another object is written, and
    the script replaces the namespace. -/
theorem script_loses_nothing_storm : ∃ past s2,
    let s1 := (stormShelf.serve otherRequest).1
    (Shelf.api fun _ => False).Same s1 s2 ∨ ∃ obj, .ok obj ∈ docs stormFile ["ns.yaml"] ∧
      (Shelf.api fun _ => False).Right python (rstripSlash apiUrl) obj stormShelf past s1 s2 := by
  have hthere : stormShelf.objects stormUrl = some (0, storm) := Shelf.store_self _ _ _
  rcases Shelf.reads (fun _ => False) (target_storm (rstripSlash apiUrl)) nameOf_storm
    hthere with ⟨obj', next, hset, hrun, _⟩
  have hother : (stormShelf.serve otherRequest).1 =
      stormShelf.store "http://127.0.0.1:6443/api/v1/nodes/storm" storm :=
    serve_other (by rw [stormShelf, Shelf.store_other nodes_ne]; rfl)
  have hthere' : (stormShelf.serve otherRequest).1.objects stormUrl = some (0, storm) := by
    rw [hother, Shelf.store_other (Ne.symm nodes_ne), hthere]
  have hbetween := hrun.append
    (.single (.other ⟨⟨otherRequest, rfl⟩, fun _ h => absurd h not_false⟩))
  exact ⟨_, _, script_loses_nothing (Shelf.api_lawful _) named_storm.isSome
    (main_storm hbetween)
    (Shelf.put_eq hthere' hset)⟩

/-- Whenever the script exits with success, the object of every manifest is
    what the server makes of the manifest where it had what was there before,
    and whether it does or not, it has touched no other object. Those that the
    others touch are not spoken of. -/
theorem script_in_place (hA : A.Lawful)
    (hnamed : ∀ obj, .ok obj ∈ docs F (path :: paths) → (nameOf obj).isSome)
    (hapart : (docs F (path :: paths)).Pairwise (Apart P (rstripSlash url)))
    (hleft : A.Left P (rstripSlash url) (docs F (path :: paths)))
    (hrun : Trace (Client.Acts A.serves A.others)
      (s, main P F doc (prog :: url :: path :: paths)) ls (s', .done fin)) :
    (fin.code = 0 → ∀ obj t, .ok obj ∈ docs F (path :: paths) →
      target P (rstripSlash url) obj = .ok t → ∃ w, A.versions.live s' t.url =
        some (w, A.settles ((A.versions.live s t.url).map Prod.snd) obj)) ∧
    ∀ other, (∀ obj t, .ok obj ∈ docs F (path :: paths) → target P (rstripSlash url) obj = .ok t →
        t.url ≠ other) →
      (∀ a b, A.others a b → A.versions.live b other = A.versions.live a other) →
        A.versions.live s' other = A.versions.live s other := by
  refine ⟨fun hcode obj t hobj ht => main_in_place hA hnamed hapart hleft hrun hcode hobj ht, ?_⟩
  intro other hother halone
  rcases main_done hrun with ⟨ls1, ls2, s1, lines, result, rfl, hdone, hidle, _⟩
  rw [Api.idle_frame hidle halone,
    applyAll_frame hA hnamed hdone hother halone]

/-! ## The script again -/

/-- A server that takes this manifest whenever its conditions hold. -/
structure Api.Accepts (A : Api S O) (t : Target) (obj : Py) : Prop where
  post : ∀ {s r s'}, A.serves s { method := .post, url := t.coll, body := some obj } r s' →
    A.versions.live s t.url = none → ∃ body, r = .ok body
  conflict : ∀ {s r s'}, A.serves s { method := .post, url := t.coll, body := some obj } r s' →
    A.versions.live s t.url ≠ none → ∃ body, r = .httpError 409 body
  get : ∀ {s r s'}, A.serves s { method := .get, url := t.url, body := none } r s' →
    A.versions.live s t.url ≠ none → ∃ body, r = .ok body
  put : ∀ {s r s' w o obj'}, A.serves s { method := .put, url := t.url, body := some obj' } r s' →
    setVersion obj (.str w) = .ok obj' → A.versions.live s t.url = some (w, o) →
      ∃ body, r = .ok body

/-- The shelf takes every manifest that has a name. -/
theorem Shelf.accepts {kept : String → Prop} {t : Target} (ht : target P base obj = .ok t)
    (hname : nameOf obj = some name) :
    (Shelf.api kept).Accepts t obj := by
  have hurl : t.url = t.coll ++ "/" ++ name := by
    unfold Target.url
    rw [target_name ht hname]
  -- What is asked of a server, one request after the other.
  refine ⟨?_, ?_, ?_, ?_⟩
  · intro s r s' hserve hnone
    rw [Shelf.live_eq, Option.map_eq_none_iff, hurl] at hnone
    have hserve' : s.serve ⟨.post, t.coll, some obj⟩ = (s', r) := hserve
    have hnot : ¬ (s.objects (t.coll ++ "/" ++ name)).isSome = true := by
      rw [hnone]
      exact Bool.false_ne_true
    simp only [Shelf.serve, hname, if_neg hnot] at hserve'
    exact ⟨obj, (Prod.mk.inj hserve').2.symm⟩
  · intro s r s' hserve hlive
    rw [Shelf.live_eq, ne_eq, Option.map_eq_none_iff, hurl] at hlive
    have hserve' : s.serve ⟨.post, t.coll, some obj⟩ = (s', r) := hserve
    have hsome : (s.objects (t.coll ++ "/" ++ name)).isSome = true :=
      Option.isSome_iff_ne_none.mpr hlive
    simp only [Shelf.serve, hname, if_pos hsome] at hserve'
    exact ⟨[], (Prod.mk.inj hserve').2.symm⟩
  · intro s r s' hserve hlive
    rw [Shelf.live_eq, ne_eq, Option.map_eq_none_iff] at hlive
    have hserve' : s.serve ⟨.get, t.url, none⟩ = (s', r) := hserve
    rcases Option.ne_none_iff_exists'.mp hlive with ⟨⟨n, old⟩, hthere⟩
    simp only [Shelf.serve, hthere] at hserve'
    exact ⟨_, (Prod.mk.inj hserve').2.symm⟩
  · intro s r s' w o obj' hserve hset hlive
    rcases Shelf.live_cases hlive with ⟨n, old, hthere, rfl, _⟩
    have hserve' : s.serve ⟨.put, t.url, some obj'⟩ = (s', r) := hserve
    rw [Shelf.put_eq hthere hset] at hserve'
    exact ⟨obj', (Prod.mk.inj hserve').2.symm⟩

section Accepted

variable {documents : List (Except Ended Py)} {lines printed : List Line} {failures : Nat}

/-- The script ends with an accepted manifest applied, when it ends. -/
theorem applyOne_accepted (hA : A.Lawful) {t : Target} (ht : target P base obj = .ok t)
    (hname : nameOf obj = some name) (haccepts : A.Accepts t obj)
    (halone : ∀ a b, A.others a b → A.versions.live b t.url = A.versions.live a t.url)
    {result : Except Ended Line}
    (hrun : Trace (Client.Acts A.serves A.others) (s, applyOne P base obj) ls (s', .done result)) :
    ∃ line, result = .ok line ∧ line.applied = true := by
  unfold applyOne at hrun
  simp only [ht] at hrun
  rcases Client.asked hrun with ⟨hask, _⟩ | ⟨wait, r0, s3, s4, ls', rfl, hwait, hpost, hrest⟩
  · exact absurd hask (by simp only [reduceCtorEq, not_false_eq_true])
  -- Nothing there is created, and something there is read and replaced.
  by_cases hlive : A.versions.live s3 t.url = none
  · rcases haccepts.post hpost hlive with ⟨body, rfl⟩
    exact ⟨_, Client.done.inj (Client.finished hrest).1, rfl⟩
  · rcases haccepts.conflict hpost hlive with ⟨body, rfl⟩
    have hdecides := hA.post hpost hname
    rw [← target_name ht hname] at hdecides
    have hkept : A.versions.live s4 t.url = A.versions.live s3 t.url := by
      rcases hdecides with ⟨hsame, _⟩ | ⟨hnone, _⟩
      · exact hsame t.url
      · exact absurd hnone hlive
    simp only [ne_eq, not_true_eq_false, if_false] at hrest
    unfold replace at hrest
    rcases Client.asked hrest with ⟨hask, _⟩ | ⟨wait2, r1, s5, s6, ls2, rfl, hwait2, hget, hrest2⟩
    · exact absurd hask (by simp only [reduceCtorEq, not_false_eq_true])
    -- It is still there when it is read, since the others leave it alone.
    have hlive5 : A.versions.live s5 t.url ≠ none := by
      rw [Api.idle_frame hwait2 halone, hkept]
      exact hlive
    rcases haccepts.get hget hlive5 with ⟨live, rfl⟩
    rcases hA.read hget with ⟨w, o, hlive', hversion⟩
    rcases setVersion_of_nameOf hname (.str w) with ⟨obj', hset⟩
    have hboth : (liveVersion live >>= setVersion obj) = .ok obj' := by
      rw [hversion]
      exact hset
    simp only [hboth] at hrest2
    rcases Client.asked hrest2 with ⟨hask, _⟩ | ⟨wait3, r2, s7, s8, ls3, rfl, hwait3, hput, hrest3⟩
    · exact absurd hask (by simp only [reduceCtorEq, not_false_eq_true])
    -- And it has the version that was read when it is replaced.
    have hlive7 : A.versions.live s7 t.url = some (w, o) := by
      rw [Api.idle_frame hwait3 halone,
        hA.get hget t.url, hlive']
    rcases haccepts.put hput hset hlive7 with ⟨body, rfl⟩
    exact ⟨_, Client.done.inj (Client.finished hrest3).1, rfl⟩

/-- Documents that were read without an exception, and manifests that the
    server accepts. -/
def Api.Welcome (A : Api S O) (P : Python) (base : String) (documents : List (Except Ended Py)) :
    Prop :=
  ∀ d ∈ documents, ∃ obj name t, d = .ok obj ∧ nameOf obj = some name ∧
    target P base obj = .ok t ∧ A.Accepts t obj

theorem applyAll_accepted (hA : A.Lawful) (hwelcome : A.Welcome P base documents)
    (hleft : A.Left P base documents) {result : Except Ended Nat}
    (hrun : Trace (Client.Acts A.serves A.others) (s, applyAll P base documents printed failures) ls
      (s', .done (lines, result))) : result = .ok failures := by
  induction documents generalizing s ls printed with
  | nil => exact (Prod.mk.inj (Client.done.inj (Client.finished hrun).1)).2
  | cons d rest ih =>
      rcases hwelcome d List.mem_cons_self with ⟨obj, name, t, rfl, hname, ht, haccepts⟩
      rcases Client.bound hrun with ⟨q', next', hask, _⟩ | ⟨ls1, ls2, s3, a, rfl, hdone, hafter⟩
      · exact absurd hask (by simp only [Client.bind, reduceCtorEq, not_false_eq_true])
      · rcases applyOne_accepted hA ht hname haccepts (hleft obj t List.mem_cons_self ht) hdone with
          ⟨line, rfl, happlied⟩
        simp only [happlied, if_true] at hafter
        exact ih (fun d hd => hwelcome d (List.mem_cons_of_mem _ hd))
          (fun o t ho => hleft o t (List.mem_cons_of_mem _ ho)) hafter

end Accepted

/-- On a server that takes the manifests, a run of the script exits with
    success. -/
theorem Api.Ran.code_eq (hA : A.Lawful)
    (hwelcome : A.Welcome P (rstripSlash url) (docs F (path :: paths)))
    (hleft : A.Left P (rstripSlash url) (docs F (path :: paths)))
    (hran : A.Ran P F doc (prog :: url :: path :: paths) s fin s') : fin.code = 0 := by
  rcases hran with ⟨ls, hrun⟩
  rcases main_done hrun with ⟨ls1, ls2, s2, lines, result, rfl, hdone, _, hiff⟩
  exact hiff.mpr (applyAll_accepted hA hwelcome hleft hdone)

/-- The shelf takes all that have names. -/
theorem Shelf.welcome (kept : String → Prop) {documents : List (Except Ended Py)}
    (hnamed : Named P base documents) : (Shelf.api kept).Welcome P base documents := by
  intro d hd
  rcases hnamed d hd with ⟨obj, name, t, hok, hname, ht⟩
  exact ⟨obj, name, t, hok, hname, ht, accepts ht hname⟩

/-- What only the script may touch, on the server with the three objects. -/
def stormKept : String → Prop :=
  Mine python (rstripSlash apiUrl) (docs stormFile ["ns.yaml"])

/-- The script gets to its end on the three objects. -/
theorem storm_runs (s : Shelf) : ∃ fin s', (Shelf.api stormKept).Ran python stormFile ""
    ["apply-manifests.py", apiUrl, "ns.yaml"] s fin s' :=
  Shelf.runs stormKept named_storm s

/-- The script is run on a server where nothing is, and puts the three objects
    there. -/
theorem script_in_place_storm : ∃ fin s',
    (Shelf.api stormKept).Ran python stormFile "" ["apply-manifests.py", apiUrl, "ns.yaml"]
        bareShelf fin s' ∧
      fin.code = 0 ∧ ∀ obj ∈ [storm, account, clusterRole], ∀ t,
        target python (rstripSlash apiUrl) obj = .ok t → ∃ w,
          (Shelf.api stormKept).versions.live s' t.url = some (w, Shelf.content obj) := by
  rcases storm_runs bareShelf with ⟨fin, s', hran⟩
  have hcode : fin.code = 0 :=
    hran.code_eq (Shelf.api_lawful _) (Shelf.welcome _ named_storm) (Shelf.left _ _ _)
  refine ⟨fin, s', hran, hcode, fun obj hobj t ht => ?_⟩
  rcases hran with ⟨ls, hrun⟩
  exact (script_in_place (Shelf.api_lawful _) named_storm.isSome apart_storm (Shelf.left _ _ _)
    hrun).1 hcode obj t (mem_storm hobj) ht

/-- The script can be run as often as one likes. Every run exits with success,
    and each object is what the server makes of its manifest, and of the
    manifest again, as many times as the script was run. -/
theorem script_reruns (hA : A.Lawful)
    (hwelcome : A.Welcome P (rstripSlash url) (docs F (path :: paths)))
    (hapart : (docs F (path :: paths)).Pairwise (Apart P (rstripSlash url)))
    (hleft : A.Left P (rstripSlash url) (docs F (path :: paths))) {fins : List Finish}
    (hruns : Trace (A.Ran P F doc (prog :: url :: path :: paths)) s fins s') :
    (∀ f ∈ fins, f.code = 0) ∧
      ∀ obj t, .ok obj ∈ docs F (path :: paths) → target P (rstripSlash url) obj = .ok t →
        (A.versions.live s' t.url).map Prod.snd =
          (fun old => some (A.settles old obj))^[fins.length]
            ((A.versions.live s t.url).map Prod.snd) := by
  have hnamed : ∀ obj, .ok obj ∈ docs F (path :: paths) → (nameOf obj).isSome := by
    intro obj hobj
    rcases hwelcome _ hobj with ⟨o, name, t, ho, hname, _⟩
    rw [Except.ok.inj ho, hname]
    rfl
  refine ⟨?_, fun obj t hobj ht => ?_⟩
  · have hcodes : ∀ {a b : S} {f : Finish}, True →
        A.Ran P F doc (prog :: url :: path :: paths) a f b → f.code = 0 ∧ True :=
      fun _ hran => ⟨hran.code_eq hA hwelcome hleft, trivial⟩
    exact (Trace.keeps (P := fun _ => True) (Q := fun f => f.code = 0) hcodes hruns trivial).1
  · -- Every run makes the same of what it finds.
    refine Trace.iterates (f := fun a => (A.versions.live a t.url).map Prod.snd) ?_ hruns
    intro a b f hran
    have hcode := hran.code_eq hA hwelcome hleft
    rcases hran with ⟨ls, hrun⟩
    rcases main_in_place hA hnamed hapart hleft hrun hcode hobj ht with ⟨w, hw⟩
    simp only [hw, Option.map_some]

/-- The script creates the three objects, and the second time it replaces
    them. -/
theorem script_reruns_storm : ∃ first second s',
    Trace ((Shelf.api stormKept).Ran python stormFile ""
        ["apply-manifests.py", apiUrl, "ns.yaml"]) bareShelf [first, second] s' ∧
      second.code = 0 ∧ ∀ obj ∈ [storm, account, clusterRole], ∀ t,
        target python (rstripSlash apiUrl) obj = .ok t →
          ((Shelf.api stormKept).versions.live s' t.url).map Prod.snd =
            some (Shelf.content obj) := by
  rcases storm_runs bareShelf with ⟨first, s1, hfirst⟩
  rcases storm_runs s1 with ⟨second, s', hsecond⟩
  have hruns := Trace.next hfirst (.single hsecond)
  rcases script_reruns (Shelf.api_lawful _) (Shelf.welcome _ named_storm) apart_storm
    (Shelf.left _ _ _) hruns with ⟨hcodes, hplace⟩
  refine ⟨first, second, s', hruns, hcodes second (List.mem_cons_of_mem _ List.mem_cons_self), ?_⟩
  exact fun obj hobj t ht => hplace obj t (mem_storm hobj) ht

end Script

end Zeroboot.Manifests
