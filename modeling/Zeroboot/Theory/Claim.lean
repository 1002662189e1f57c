import Zeroboot.Core.Boot

/-!
# Claims as Text

A claim is rendered as two lines and parsed line by line, so what comes back
is the claim only when its node survives the lines and the trimming. A
`NodeName` is one that does: it is not empty, nothing can be trimmed off it,
and it is one line. Every node that is ever parsed is such a name, so a node
that is none does not come back, whatever comes back instead.

The clock is no obstacle: its text is digits and punctuation.

## Main definitions

* `NodeName`, `ClaimedText`: Fields that survive being written down.
* `ReadsBack`: A claim by this node is read back as its own, or not at all.

## Theorems

* `parse_nodeName`: Every parsed node is a name.
* `parse_render`: A claim by a name is read back.
* `parse_render_eq`: A claim that survives is read back as it is.
* `claim_codec`: Which claims these are.
* `readsBack_iff`: Which claims are read back as their own.
* `newline_not_mem_nowRfc3339`: The clock is one line.
-/

namespace Zeroboot

/-- A node that survives being written down: not empty, trimmed, and without
    a line feed. -/
structure NodeName (node : String) : Prop where
  ne_empty : node ≠ ""
  trimmed : Text.trim node = node
  oneLine : '\n' ∉ node.toList

/-- What a claim says about when it was made, where that survives as well. It
    may be empty. -/
structure ClaimedText (claimed : String) : Prop where
  trimmed : Text.trim claimed = claimed
  oneLine : '\n' ∉ claimed.toList

/-! ## Parsing -/

/-- A trimmed part of a line is a name, unless it is empty. -/
theorem nodeName_of_part {part : String} (hline : '\n' ∉ part.toList) {node : String}
    (h : (some (Text.trim part)).filter (· ≠ "") = some node) : NodeName node := by
  rcases Option.filter_eq_some_iff.mp h with ⟨hnode, hne⟩
  rw [← Option.some.inj hnode] at hne ⊢
  refine ⟨of_decide_eq_true hne, Text.trim_trim part, ?_⟩
  unfold Text.trim
  rw [String.toList_ofList]
  exact fun hm => hline (Text.mem_of_mem_trimChars hm)

/-- The value of a line is a part of it, so it is one line as well. -/
theorem newline_not_mem_value {line k v : String} (hline : '\n' ∉ line.toList)
    (hs : Text.splitOnce '=' line = some (k, v)) : '\n' ∉ v.toList := by
  unfold Text.splitOnce at hs
  rcases Option.map_eq_some_iff.mp hs with ⟨⟨a, b⟩, hab, heq⟩
  rw [← (Prod.mk.inj heq).2, String.toList_ofList]
  intro hm
  refine hline ?_
  rw [(Text.eq_of_splitOnceChars hab).1]
  exact List.mem_append_right a (List.mem_cons_of_mem _ hm)

theorem parseLine_nodeName {st : Option String × String} {line : String}
    (hline : '\n' ∉ line.toList) (hst : ∀ node, st.1 = some node → NodeName node) :
    ∀ node, (Claim.parseLine st line).1 = some node → NodeName node := by
  intro node h
  unfold Claim.parseLine at h
  rcases hs : Text.splitOnce '=' line with _ | ⟨k, v⟩
  · rw [hs] at h
    exact hst node h
  · rw [hs] at h
    -- Only a `node` line changes the node.
    by_cases hk : Text.trim k = "node"
    · simp only [if_pos hk] at h
      exact nodeName_of_part (newline_not_mem_value hline hs) h
    · simp only [if_neg hk] at h
      by_cases hk' : Text.trim k = "claimed"
      · simp only [if_pos hk'] at h
        exact hst node h
      · simp only [if_neg hk'] at h
        exact hst node h

theorem parseLines_nodeName (ls : List String) (hls : ∀ l ∈ ls, '\n' ∉ l.toList) :
    ∀ st : Option String × String, (∀ node, st.1 = some node → NodeName node) →
      ∀ node, (ls.foldl Claim.parseLine st).1 = some node → NodeName node := by
  induction ls with
  | nil => exact fun _ hst => hst
  | cons l ls ih =>
      intro st hst
      rw [List.foldl_cons]
      exact ih (fun x hx => hls x (List.mem_cons_of_mem l hx)) _
        (parseLine_nodeName (hls l List.mem_cons_self) hst)

theorem newline_not_mem_lines (text : String) : ∀ l ∈ Text.lines text, '\n' ∉ l.toList := by
  intro l hl
  rcases List.mem_map.mp hl with ⟨cs, hcs, rfl⟩
  rw [String.toList_ofList]
  exact Text.newline_not_mem_lineChars _ cs hcs

/-- Every node that is ever parsed is a name. -/
theorem parse_nodeName {text : String} {c : Claim} (h : Claim.parse text = some c) :
    NodeName c.node := by
  unfold Claim.parse at h
  rcases Option.map_eq_some_iff.mp h with ⟨node, hnode, rfl⟩
  exact parseLines_nodeName _ (newline_not_mem_lines text) (none, "")
    (fun node hn => absurd hn (by simp only [reduceCtorEq, not_false_eq_true])) node hnode

theorem parseLine_claimedText {st : Option String × String} {line : String}
    (hline : '\n' ∉ line.toList) (hst : ClaimedText st.2) :
    ClaimedText (Claim.parseLine st line).2 := by
  unfold Claim.parseLine
  rcases hs : Text.splitOnce '=' line with _ | ⟨k, v⟩
  · exact hst
  · by_cases hk : Text.trim k = "node"
    · simp only [if_pos hk]
      exact hst
    · by_cases hk' : Text.trim k = "claimed"
      · simp only [if_neg hk, if_pos hk']
        refine ⟨Text.trim_trim v, ?_⟩
        unfold Text.trim
        rw [String.toList_ofList]
        exact fun hm => newline_not_mem_value hline hs (Text.mem_of_mem_trimChars hm)
      · simp only [if_neg hk, if_neg hk']
        exact hst

theorem parseLines_claimedText (ls : List String) (hls : ∀ l ∈ ls, '\n' ∉ l.toList) :
    ∀ st : Option String × String, ClaimedText st.2 →
      ClaimedText (ls.foldl Claim.parseLine st).2 := by
  induction ls with
  | nil => exact fun _ hst => hst
  | cons l ls ih =>
      intro st hst
      rw [List.foldl_cons]
      exact ih (fun x hx => hls x (List.mem_cons_of_mem l hx)) _
        (parseLine_claimedText (hls l List.mem_cons_self) hst)

/-- So is every text about when it was claimed. -/
theorem parse_claimedText {text : String} {c : Claim} (h : Claim.parse text = some c) :
    ClaimedText c.claimed := by
  unfold Claim.parse at h
  rcases Option.map_eq_some_iff.mp h with ⟨node, _, rfl⟩
  exact parseLines_claimedText _ (newline_not_mem_lines text) (none, "") ⟨rfl, by decide⟩

/-! ## Rendering -/

/-- The lines a claim by a name is written on. -/
theorem lines_render {c : Claim} (hn : NodeName c.node) (ht : '\n' ∉ c.claimed.toList) :
    Text.lines c.render =
      ["node=" ++ c.node, String.ofList (Text.stripCr ("claimed=" ++ c.claimed).toList)] := by
  have hnode : '\n' ∉ ("node=" ++ c.node).toList := by
    rw [String.toList_append, List.mem_append]
    rintro (hm | hm)
    · exact absurd hm (by decide)
    · exact hn.oneLine hm
  have hclaimed : '\n' ∉ ("claimed=" ++ c.claimed).toList := by
    rw [String.toList_append, List.mem_append]
    rintro (hm | hm)
    · exact absurd hm (by decide)
    · exact ht hm
  have hrender : c.render.toList =
      ("node=" ++ c.node).toList ++ '\n' :: (("claimed=" ++ c.claimed).toList ++ '\n' :: []) := by
    unfold Claim.render
    simp only [String.toList_append, List.append_assoc]
    rfl
  -- The node is trimmed, so no carriage return is taken off its line.
  have hstrip : Text.stripCr ("node=" ++ c.node).toList = ("node=" ++ c.node).toList := by
    rw [String.toList_append]
    refine Text.stripCr_append_trimmed ?_ (by decide)
    have htrim := congrArg String.toList hn.trimmed
    rwa [Text.trim, String.toList_ofList] at htrim
  unfold Text.lines
  rw [hrender, Text.lineChars_cons _ hnode, Text.lineChars_cons _ hclaimed, hstrip]
  simp only [Text.lineChars, Text.linesFrom, if_true, List.map_cons, List.map_nil,
    String.ofList_toList]

theorem splitOnce_append (key : String) (hkey : '=' ∉ key.toList) (value : String) :
    Text.splitOnce '=' (key ++ "=" ++ value) = some (key, value) := by
  have hlist : (key ++ "=" ++ value).toList = key.toList ++ '=' :: value.toList := by
    simp only [String.toList_append, List.append_assoc]
    rfl
  unfold Text.splitOnce
  rw [hlist, Text.splitOnceChars_append _ hkey, Option.map_some, String.ofList_toList,
    String.ofList_toList]

/-- A `node` line with a name on it. -/
theorem parseLine_node {node : String} (hn : NodeName node) (st : Option String × String) :
    Claim.parseLine st ("node=" ++ node) = (some node, st.2) := by
  unfold Claim.parseLine
  rw [show "node=" ++ node = "node" ++ "=" ++ node from rfl,
    splitOnce_append "node" (by decide) node]
  simp only [show Text.trim "node" = "node" by decide, if_true, hn.trimmed]
  rw [Option.filter_some, if_pos (decide_eq_true hn.ne_empty)]

/-- A `claimed` line leaves the node as it was. -/
theorem parseLine_claimed (st : Option String × String) (value : String) :
    (Claim.parseLine st
      (String.ofList (Text.stripCr ("claimed" ++ "=" ++ value).toList))).1 = st.1 := by
  have hlist : ("claimed" ++ "=" ++ value).toList = "claimed".toList ++ '=' :: value.toList := by
    simp only [String.toList_append, List.append_assoc]
    rfl
  -- What is stripped off the end leaves the key and the equals sign alone.
  have hsplit : Text.splitOnce '='
      (String.ofList ("claimed".toList ++ '=' :: Text.stripCr value.toList)) =
        some ("claimed", String.ofList (Text.stripCr value.toList)) := by
    unfold Text.splitOnce
    rw [String.toList_ofList, Text.splitOnceChars_append _ (by decide), Option.map_some,
      String.ofList_toList]
  unfold Claim.parseLine
  rw [hlist, Text.stripCr_append_cons _ _ (by decide), hsplit]
  simp only [show Text.trim "claimed" = "claimed" by decide,
    show ¬ "claimed" = "node" by decide, if_false, if_true]

/-- A claim by a name is read back as a claim by that name. -/
theorem parse_render {c : Claim} (hn : NodeName c.node) (ht : '\n' ∉ c.claimed.toList) :
    ∃ c', Claim.parse c.render = some c' ∧ c'.node = c.node := by
  have hclaimed : (Claim.parseLine (some c.node, "")
      (String.ofList (Text.stripCr ("claimed=" ++ c.claimed).toList))).1 = some c.node :=
    parseLine_claimed _ c.claimed
  unfold Claim.parse
  rw [lines_render hn ht, List.foldl_cons, List.foldl_cons, List.foldl_nil, parseLine_node hn]
  simp only [hclaimed, Option.map_some]
  exact ⟨_, rfl, rfl⟩

theorem toList_trimmed {s : String} (h : Text.trim s = s) :
    Text.trimChars s.toList = s.toList := by
  have htrim := congrArg String.toList h
  rwa [Text.trim, String.toList_ofList] at htrim

/-- A claim both of whose fields survive is read back as it is. -/
theorem parse_render_eq {c : Claim} (hn : NodeName c.node) (hc : ClaimedText c.claimed) :
    Claim.parse c.render = some c := by
  -- Trimmed, the line loses nothing at its end either.
  have hstrip : String.ofList (Text.stripCr ("claimed=" ++ c.claimed).toList) =
      "claimed" ++ "=" ++ c.claimed := by
    rw [String.toList_append, Text.stripCr_append_trimmed (toList_trimmed hc.trimmed) (by decide),
      ← String.toList_append, String.ofList_toList]
    rfl
  have hclaimed : Claim.parseLine (some c.node, "") ("claimed" ++ "=" ++ c.claimed) =
      (some c.node, c.claimed) := by
    unfold Claim.parseLine
    rw [splitOnce_append "claimed" (by decide) c.claimed]
    simp only [show Text.trim "claimed" = "claimed" by decide,
      show ¬ "claimed" = "node" by decide, if_false, if_true, hc.trimmed]
  unfold Claim.parse
  rw [lines_render hn hc.oneLine, List.foldl_cons, List.foldl_cons, List.foldl_nil, hstrip,
    parseLine_node hn, hclaimed]
  rfl

/-- Which claims are read back as they are; every claim that was read is one
    of them. -/
theorem claim_codec :
    (∀ c : Claim, Claim.parse c.render = some c ↔
      c.node ≠ "" ∧ (Text.trim c.node = c.node ∧ Text.trim c.claimed = c.claimed) ∧
        '\n' ∉ c.node.toList ∧ '\n' ∉ c.claimed.toList) ∧
    ∀ (t : String) (c : Claim), Claim.parse t = some c →
      (c.node ≠ "" ∧ (Text.trim c.node = c.node ∧ Text.trim c.claimed = c.claimed) ∧
        '\n' ∉ c.node.toList ∧ '\n' ∉ c.claimed.toList) ∧ Claim.parse c.render = some c := by
  have hparsed {t : String} {c : Claim} (h : Claim.parse t = some c) :
      c.node ≠ "" ∧ (Text.trim c.node = c.node ∧ Text.trim c.claimed = c.claimed) ∧
        '\n' ∉ c.node.toList ∧ '\n' ∉ c.claimed.toList := by
    have hn := parse_nodeName h
    have hc := parse_claimedText h
    exact ⟨hn.ne_empty, ⟨hn.trimmed, hc.trimmed⟩, hn.oneLine, hc.oneLine⟩
  refine ⟨fun c => ⟨hparsed, ?_⟩, ?_⟩
  · rintro ⟨hne, ⟨hntrim, hctrim⟩, hnline, hcline⟩
    exact parse_render_eq ⟨hne, hntrim, hnline⟩ ⟨hctrim, hcline⟩
  · intro t c h
    exact ⟨hparsed h, parse_render_eq (parse_nodeName h) (parse_claimedText h)⟩

/-- The last node counts, and blanks and carriage returns around it do not; what
    was read is written and read back without them. -/
theorem claim_codec_overridden :
    Claim.parse "node=r640\n node = r230 \r\nclaimed=now" =
        some { node := "r230", claimed := "now" } ∧
      Claim.parse (Claim.render { node := "r230", claimed := "now" }) =
        some { node := "r230", claimed := "now" } := by
  have hparse : Claim.parse "node=r640\n node = r230 \r\nclaimed=now" =
      some { node := "r230", claimed := "now" } := by
    decide
  exact ⟨hparse, (claim_codec.2 _ _ hparse).2⟩

/-! ## The clock -/

theorem newline_not_mem_padded (width n : Nat) : '\n' ∉ (padded width n).toList := by
  unfold padded
  rw [String.toList_ofList, List.mem_append]
  rintro (hm | hm)
  · exact absurd (List.eq_of_mem_replicate hm) (by decide)
  · -- A digit is no line feed.
    exact absurd (Nat.isDigit_of_mem_toDigits (by decide) (by decide) hm) (by decide)

theorem newline_not_mem_nowRfc3339 (secs : Nat) : '\n' ∉ (nowRfc3339 secs).toList := by
  unfold nowRfc3339
  simp only [String.toList_append, List.mem_append, newline_not_mem_padded, false_or, or_false,
    not_or]
  decide

/-- The epoch, as text. -/
theorem nowRfc3339_zero : nowRfc3339 0 = "1970-01-01T00:00:00Z" := by
  have hyear : yearLoop 1970 (0 / 86400) = (1970, 0) := by
    rw [yearLoop, if_pos (by decide)]
  unfold nowRfc3339
  simp only [hyear]
  decide

/-! ## A node's own claim -/

/-- What a node writes down is read back as its own, or as no claim. -/
def ReadsBack (me : String) (secs : Nat) : Prop :=
  NodeName me ∨ Claim.parse (Claim.render { node := me, claimed := nowRfc3339 secs }) = none

theorem readsBack_iff (me : String) (secs : Nat) :
    ReadsBack me secs ↔ ∀ c, Claim.parse
      (Claim.render { node := me, claimed := nowRfc3339 secs }) = some c → c.node = me := by
  constructor
  · rintro (hn | hnone) c hc
    · rcases parse_render (c := { node := me, claimed := nowRfc3339 secs }) hn
        (newline_not_mem_nowRfc3339 secs) with ⟨c', hc', hnode⟩
      rw [hc, Option.some_inj] at hc'
      rw [hc', hnode]
    · rw [hnone] at hc
      exact absurd hc (by simp only [reduceCtorEq, not_false_eq_true])
  · intro h
    rcases hp : Claim.parse (Claim.render { node := me, claimed := nowRfc3339 secs }) with _ | c
    · exact Or.inr hp
    · -- Whatever was parsed is a name, and here it is this node.
      refine Or.inl ?_
      have hname := parse_nodeName hp
      rwa [h c hp] at hname

end Zeroboot
