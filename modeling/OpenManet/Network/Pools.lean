import OpenManet.Lib.Uci.Listed
import OpenManet.Lib.Uci.Rework
import OpenManet.Network.Frame
import OpenManet.Network.Relayed
import Mathlib.Data.List.Find
/-!
# Zones and pools, asked for twice

`GetOrCreateZone` of `internal/network/uci_firewall.go` and
`GetOrCreateDhcpPool` of `internal/network/uci_dhcp.go`. A pool is looked for by
the network it serves and whether it is ignored, and the one that is returned
is the first that is found when it is asked for again. A zone is looked for by
the networks it lists, but what is returned is its name: the first zone that
lists the network may have none, and then another is made on every call.
-/

namespace OpenManet

namespace Network

open Uci Fallible

variable {h : Host} {t t' : Tree} {n r : String} {c c' : Config} {s : Section} {start : ℕ}
  {extra : List (String × List String)}

/-! ## Pools -/

/-- The pool targets the network. -/
def serves (n : String) (s : Section) : Bool := (s.get "interface").head? == some n

def isIgnored (s : Section) : Bool := (s.get "ignore").head? == some "1"

/-- What is written to a pool that is there. -/
def poolWrites (n : String) (extra : List (String × List String)) : List (String × List String) :=
  [("interface", [n]), ("force", ["1"])] ++ extra

/-- An option that is there, or not, is not written to a section that is
there. -/
theorem sure_backfill {option value : String} (hmem : h.tree.mem "dhcp" = some c)
    (hfind : (c.find r).isSome = true) :
    Sure (backfill r option value) h fun _ h' => h'.tree.mem "dhcp" = some c := by
  refine sure_tree_bind ?_
  rw [if_pos (by rw [Tree.found, hmem]; exact hfind)]
  exact sure_pure hmem

theorem sure_backfillPoolOptions {f : Table (List String) → Table (List String)}
    (hmem : h.tree.mem "dhcp" = some (c.update r f)) (hfind : (c.find r).isSome = true) :
    Sure (backfillPoolOptions r n extra start) h fun _ h' =>
      h'.tree.mem "dhcp" = some (c.update r (putAll (poolWrites n extra) ∘ f)) := by
  have hthere : ((c.update r f).find r).isSome = true := by rwa [Config.find_update_isSome]
  refine (sure_backfill hmem hthere).bind fun _ h₁ hmem₁ => ?_
  refine (sure_backfill hmem₁ hthere).bind fun _ h₂ hmem₂ => ?_
  refine (sure_backfill hmem₂ hthere).bind fun _ h₃ hmem₃ => ?_
  refine (sure_putAll hmem₃ hfind).bind fun _ h₄ hmem₄ => ?_
  refine (sure_putAll hmem₄ hfind).mono fun _ h₅ hmem₅ => ?_
  rw [hmem₅]
  congr 2
  funext t
  simp only [Function.comp_apply, putAll, poolWrites, List.foldl_append, List.map_id']
  rfl

/-- A search along the listed addresses is one along the sections. -/
theorem pools_find? (hmem : t.mem "dhcp" = some c) :
    ((c.refs "dhcp").filter fun s => (t.get "dhcp" s "interface").head? == some n).find?
        (fun s => (t.get "dhcp" s "ignore").head? != some "1") =
      (((c.listed "dhcp").filter fun x => serves n x.2).find? fun x => !isIgnored x.2).map Prod.fst ∧
    (c.refs "dhcp").filter (fun s => (t.get "dhcp" s "interface").head? == some n) =
      ((c.listed "dhcp").filter fun x => serves n x.2).map Prod.fst := by
  have hget : ∀ x ∈ c.listed "dhcp", ∀ o, t.get "dhcp" x.1 o = x.2.get o := by
    intro x hx o
    rw [Tree.get_of_mem hmem, Config.get_of_mem_listed hx]
  have hfilter : (c.refs "dhcp").filter (fun s => (t.get "dhcp" s "interface").head? == some n) =
      ((c.listed "dhcp").filter fun x => serves n x.2).map Prod.fst := by
    rw [← Config.listed_fst, List.filter_map]
    congr 1
    refine List.filter_congr fun x hx => ?_
    rw [Function.comp_apply, hget x hx, serves]
  refine ⟨?_, hfilter⟩
  rw [hfilter, List.find?_map]
  congr 1
  refine List.find?_congr fun x hx => ?_
  rw [Function.comp_apply, hget x (List.mem_of_mem_filter hx), isIgnored]
  rfl

/-- The pool at the address is the first that serves the network and is not
ignored, and has its options. -/
def Chosen (n : String) (extra : List (String × List String)) (c : Config) (r : String) : Prop :=
  ∃ a s b, c.listed "dhcp" = a ++ (r, s) :: b ∧
    (∀ x ∈ a, serves n x.2 = true → isIgnored x.2 = true) ∧ s.get "interface" = [n] ∧
    isIgnored s = false ∧ ∀ o v, lastPut (poolWrites n extra) o = some v → s.options.lookup o = some v

/-- Extra options that leave the pool what it is for. -/
def Harmless (extra : List (String × List String)) : Prop :=
  ∀ w ∈ extra, w.1 ≠ "interface" ∧ w.1 ≠ "ignore"

theorem lastPut_interface (hextra : Harmless extra) :
    lastPut (poolWrites n extra) "interface" = some [n] := by
  rw [poolWrites, lastPut_append, lastPut_eq_none fun w hw => (hextra w hw).1]
  rfl

theorem lastPut_ignore (hextra : Harmless extra) : lastPut (poolWrites n extra) "ignore" = none := by
  rw [poolWrites, lastPut_append, lastPut_eq_none fun w hw => (hextra w hw).2]
  rfl

/-- **A pool that was found, or made, and written to is the chosen one.** -/
theorem chosen_update {f : Table (List String) → Table (List String)}
    {a b : List (String × Section)} (hextra : Harmless extra)
    (hsplit : c.listed "dhcp" = a ++ (r, s) :: b)
    (hbefore : ∀ x ∈ a, serves n x.2 = true → isIgnored x.2 = true)
    (hopen : isIgnored (s.edit f) = false) :
    Chosen n extra (c.update r (putAll (poolWrites n extra) ∘ f)) r := by
  have hnodup : ((c.listed "dhcp").map Prod.fst).Nodup := by
    rw [Config.listed_fst]
    exact c.refs_nodup _
  rw [hsplit] at hnodup
  simp only [List.map_append, List.map_cons, List.nodup_middle, List.nodup_cons, List.mem_append,
    not_or] at hnodup
  have hkeep : ∀ l : List (String × Section), r ∉ l.map Prod.fst →
      l.map (fun x => if x.1 = r then (x.1, x.2.edit (putAll (poolWrites n extra) ∘ f)) else x) = l := by
    intro l hl
    refine (List.map_congr_left fun x hx => if_neg ?_).trans (List.map_id l)
    rintro rfl
    exact hl (List.mem_map_of_mem hx)
  have hlookup : ∀ o, (s.edit (putAll (poolWrites n extra) ∘ f)).options.lookup o =
      (lastPut (poolWrites n extra) o).or ((f s.options).lookup o) := fun o => lookup_putAll _ _ o
  refine ⟨a, s.edit (putAll (poolWrites n extra) ∘ f), b, ?_, hbefore, ?_, ?_, fun o v hv => ?_⟩
  · have href : r ∈ c.refs "dhcp" :=
      Config.fst_mem_refs (x := (r, s)) (by rw [hsplit]; simp)
    rw [Config.listed_update href, hsplit, List.map_append, List.map_cons, if_pos rfl,
      hkeep a hnodup.1.1, hkeep b hnodup.1.2]
  · rw [Section.get, hlookup, lastPut_interface hextra]
    rfl
  · rw [isIgnored, Section.get, hlookup, lastPut_ignore hextra, Option.none_or]
    exact hopen
  · rw [hlookup, hv]
    rfl

/-- **What is chosen is found again**, and written what it has already. -/
theorem Chosen.repeats {extra' : List (String × List String)} {start' : ℕ} (hc : Chosen n extra c r)
    (hne : n ≠ "") (hmem : t.mem "dhcp" = some c) (hdirty : t.dirty "dhcp" = true)
    (hkeys : extra.Pairwise fun w w' => w.1 ≠ w'.1) (hperm : extra'.Perm extra) :
    Repeats Tree.Alike (getOrCreateDhcpPool n extra' start') t r := by
  obtain ⟨a, s, b, hsplit, hbefore, hserves, hopen, hwritten⟩ := hc
  rintro h rfl
  have hlast : ∀ o, lastPut (poolWrites n extra') o = lastPut (poolWrites n extra) o := by
    intro o
    rw [poolWrites, poolWrites, lastPut_append, lastPut_append, lastPut_perm hkeys hperm]
  have hfirst : ((c.listed "dhcp").filter fun x => serves n x.2).find? (fun x => !isIgnored x.2) =
      some (r, s) := by
    rw [List.find?_filter, List.find?_eq_some_iff_append]
    refine ⟨by simp [serves, hserves, hopen], a, b, hsplit, fun x hx => ?_⟩
    have hx' := hbefore x hx
    cases hs : serves n x.2 with
    | false => rfl
    | true => simp [hx' hs]
  have hx : (r, s) ∈ c.listed "dhcp" := by simp [hsplit]
  have hfind : (c.find r).isSome = true := by
    rw [Config.find_of_mem_listed hx]
    rfl
  have hrun : Sure (getOrCreateDhcpPool n extra' start') h fun r' h' => r' = r ∧
      h'.tree.mem "dhcp" = some (c.update r (putAll (poolWrites n extra'))) := by
    unfold getOrCreateDhcpPool
    rw [if_neg hne]
    refine (sure_getSections hmem).saying.bind ?_
    rintro sections h₁ ⟨rfl, htree⟩
    refine sure_tree_bind ?_
    dsimp only
    rw [htree, (pools_find? hmem).1, hfirst]
    dsimp only [Option.map_some]
    have hmem₁ : h₁.tree.mem "dhcp" = some (c.update r id) := by rw [htree, hmem, Config.update_id]
    exact (sure_backfillPoolOptions hmem₁ hfind).bind fun _ h₂ hmem₂ => sure_pure ⟨rfl, hmem₂⟩
  have hkeep : Within (Edits ["dhcp"] ["dhcp"]) (getOrCreateDhcpPool n extra' start') :=
    within_getOrCreateDhcpPool (by simp) (by simp)
  refine (hrun.within hkeep).mono ?_
  rintro r' h' ⟨⟨rfl, hmem'⟩, hedits⟩
  refine ⟨rfl, Tree.alike_of_edits hedits hmem hmem' ?_ hdirty⟩
  obtain ⟨e, he, -, heq⟩ := Config.mem_listed.1 hx
  obtain ⟨rfl, rfl⟩ := Prod.mk.inj heq
  refine Config.alike_update he fun o => ?_
  rw [lookup_putAll, hlast]
  cases hput : lastPut (poolWrites n extra) o with
  | none => rfl
  | some v => rw [hwritten o v hput, Option.some_or]

theorem leaves_backfillPoolOptions {f : Table (List String) → Table (List String)}
    (hmem : h.tree.mem "dhcp" = some (c.update r f)) (hfind : (c.find r).isSome = true) :
    Leaves (backfillPoolOptions r n extra start) h fun _ h' =>
      h'.tree.mem "dhcp" = some (c.update r (putAll (poolWrites n extra) ∘ f)) ∧
        h'.tree.dirty "dhcp" = true := by
  have hdirty : Leaves (backfillPoolOptions r n extra start) h fun _ h' =>
      h'.tree.dirty "dhcp" = true := by
    refine leaves_after fun _ h₁ => leaves_after fun _ h₂ => leaves_after fun _ h₃ => ?_
    have hfirst : Leaves (setOptions "dhcp" r (setting "dhcp" r) [("interface", n), ("force", "1")])
        h₃ fun _ h' => h'.tree.dirty "dhcp" = true := by
      refine leaves_then (leaves_saying.2 (leaves_editSection fun _ _ _ _ => by simp [Tree.stage]))
        fun _ h' hd _ h'' hrun => ?_
      have hkeep : Within (Edits ["dhcp"] []) (setOptions "dhcp" r (setting "dhcp" r)
        [("force", "1")]) := within_setOptions (by simp)
      exact (hkeep.ok hrun).2.2.1 "dhcp" hd
    refine leaves_then hfirst fun _ h' hd _ h'' hrun => ?_
    have hkeep : Within (Edits ["dhcp"] []) (extra.forM fun w =>
        saying (setting "dhcp" r w.1) (setType "dhcp" r w.1 w.2)) :=
      within_forM fun _ => within_saying (within_setType (by simp))
    exact (hkeep.ok hrun).2.2.1 "dhcp" hd
  exact fun a h' hrun => ⟨(sure_backfillPoolOptions hmem hfind).leaves a h' hrun, hdirty a h' hrun⟩

/-- A pool that is made stands behind the others. -/
theorem leaves_createDhcpPool (hn : Plain n) (hne : n ≠ "") (hmem : h.tree.mem "dhcp" = some c) :
    Leaves (createDhcpPool n extra start) h fun r h' => c.find r = none ∧ Plain r ∧ r ≠ "" ∧
      (c.push "dhcp" r).listed "dhcp" = c.listed "dhcp" ++ [(r, ⟨"dhcp", r, ∅⟩)] ∧
      h'.tree.mem "dhcp" =
        some ((c.push "dhcp" r).update r (putAll (poolWrites n extra) ∘ id)) ∧
      h'.tree.dirty "dhcp" = true := by
  unfold createDhcpPool
  rw [if_neg hne, leaves_bind, leaves_tree, leaves_bind]
  refine (leaves_firstFree (tests_poolNameTaken hn hne)
    (fun _ hk => absurd hk (Nat.not_lt_zero _)) rfl).mono ?_
  rintro name h₁ ⟨htree, k, rfl, hfree, -⟩
  obtain ⟨hk, hke⟩ := plain_numbered hn hne k
  generalize numbered n k = name at hfree hk hke
  have hnone : c.find name = none := by simpa [Tree.found, hmem] using hfree
  have hlisted := Config.listed_push hk hke (show '[' ∉ "dhcp".toList by decide) hnone
  have hnew := Config.find_push_self hk (show '[' ∉ "dhcp".toList by decide) hnone
  have hgot : (h₁.tree.mem "dhcp").getD Config.empty = c := by rw [htree, hmem]; rfl
  rw [leaves_bind, leaves_saying]
  refine leaves_addSection (fun s tick' hfind => ?_) fun tick' _ => ?_
  · rw [hgot, hnone] at hfind
    cases hfind
  rw [hgot, leaves_bind]
  refine (leaves_backfillPoolOptions (h := { h₁ with
    tree := h₁.tree.stage "dhcp" (c.push "dhcp" name), tick := tick' })
    (by rw [Tree.stage_mem, Config.update_id]) (by rw [hnew]; rfl)).mono ?_
  rintro _ h' ⟨hmem', hdirty⟩
  exact (leaves_pure _).2 ⟨hnone, hk, hke, hlisted, hmem', hdirty⟩

/-- **What is done for a network**: a pool that serves it is written to, the
first that is not ignored or, where all are, the first, which is no longer
ignored then; else a pool is made behind the others. -/
theorem leaves_getOrCreateDhcpPool (hn : Plain n) (hne : n ≠ "") (h : Host) :
    Leaves (getOrCreateDhcpPool n extra start) h fun r h' => ∃ c c₀ f a s b,
      h.tree.mem "dhcp" = some c ∧
        (c₀ = c ∨ c.find r = none ∧ Plain r ∧ r ≠ "" ∧ c₀ = c.push "dhcp" r) ∧
        c₀.listed "dhcp" = a ++ (r, s) :: b ∧
        (∀ x ∈ a, serves n x.2 = true → isIgnored x.2 = true) ∧ isIgnored (s.edit f) = false ∧
        h'.tree.mem "dhcp" = some (c₀.update r (putAll (poolWrites n extra) ∘ f)) ∧
        h'.tree.dirty "dhcp" = true := by
  unfold getOrCreateDhcpPool
  rw [if_neg hne, leaves_bind, leaves_saying]
  refine leaves_getSections fun c tick hmem => ?_
  rw [leaves_bind, leaves_tree]
  dsimp only
  rw [(pools_find? hmem).1, (pools_find? hmem).2]
  cases hopen : ((c.listed "dhcp").filter fun x => serves n x.2).find? fun x => !isIgnored x.2 with
  | some x =>
      rw [List.find?_filter, List.find?_eq_some_iff_append] at hopen
      obtain ⟨htest, a, b, hsplit, hbefore⟩ := hopen
      simp only [Bool.not_eq_true', decide_eq_true_iff] at htest
      have hx : x ∈ c.listed "dhcp" := by simp [hsplit]
      have hmem₁ : h.tree.mem "dhcp" = some (c.update x.1 id) := by rw [Config.update_id, hmem]
      dsimp only [Option.map_some]
      rw [leaves_bind]
      refine (leaves_backfillPoolOptions (h := { h with tick := tick }) hmem₁
        (by rw [Config.find_of_mem_listed hx]; rfl)).mono ?_
      rintro _ h' ⟨hmem', hdirty⟩
      refine (leaves_pure _).2 ⟨c, c, id, a, x.2, b, hmem, .inl rfl, hsplit, fun y hy hs => ?_, htest.2,
        hmem', hdirty⟩
      simpa [hs] using hbefore y hy
  | none =>
      have hall : ∀ x ∈ c.listed "dhcp", serves n x.2 = true → isIgnored x.2 = true := by
        intro x hx hs
        simpa using List.find?_eq_none.1 hopen x (List.mem_filter.2 ⟨hx, hs⟩)
      dsimp only [Option.map_none]
      cases hserving : (c.listed "dhcp").filter fun x => serves n x.2 with
      | cons x rest =>
          have hx : x ∈ c.listed "dhcp" := List.mem_of_mem_filter (by rw [hserving]; simp)
          obtain ⟨a, b, hsplit⟩ := List.append_of_mem hx
          have hmem₁ : h.tree.mem "dhcp" = some (c.update x.1 id) := by rw [Config.update_id, hmem]
          have hfind : (c.find x.1).isSome = true := by rw [Config.find_of_mem_listed hx]; rfl
          rw [List.map_cons]
          dsimp only
          rw [leaves_bind]
          refine (sure_dropAll (h := { h with tick := tick }) hmem₁ hfind).leaves.mono ?_
          intro _ h₁ hmem₂
          rw [leaves_bind]
          refine (leaves_backfillPoolOptions hmem₂ hfind).mono ?_
          rintro _ h' ⟨hmem', hdirty⟩
          refine (leaves_pure _).2 ⟨c, c, _, a, x.2, b, hmem, .inl rfl, hsplit, fun y hy => ?_, ?_,
            hmem', hdirty⟩
          · exact hall y (by rw [hsplit]; exact List.mem_append_left _ hy)
          · show ((Option.getD ((dropAll _ _).lookup "ignore") []).head? == some "1") = false
            rw [lookup_dropAll, if_pos (by simp)]
            rfl
      | nil =>
          rw [List.map_nil]
          dsimp only
          refine (leaves_createDhcpPool (h := { h with tick := tick }) hn hne hmem).mono ?_
          rintro name h' ⟨hnone, hk, hke, hlisted, hmem', hdirty⟩
          refine ⟨c, _, id, _, _, [], hmem, .inr ⟨hnone, hk, hke, rfl⟩, hlisted, fun x hx hs => ?_,
            rfl, hmem', hdirty⟩
          have hno : x ∈ (c.listed "dhcp").filter fun x => serves n x.2 := List.mem_filter.2 ⟨hx, hs⟩
          rw [hserving] at hno
          cases hno

/-- The other configs and the files are as they were. -/
def Elsewhere (config : String) (t t' : Tree) : Prop :=
  (∀ other, other ≠ config → t'.mem other = t.mem other) ∧ t'.disk = t.disk

theorem elsewhere_of_edits {config : String} {born : List String} {h' : Host}
    (hedits : (Edits [config] born).rel h h') : Elsewhere config h.tree h'.tree :=
  ⟨fun other hne => (hedits.2.1 other (by simpa using hne)).1, hedits.1⟩

/-- **The pool serves the network**, it is the only section that was touched,
and asked for again it is given again and nothing changes. -/
structure PoolServes (n : String) (extra : List (String × List String)) (t t' : Tree) (r : String) :
    Prop where
  lists : t'.get "dhcp" r "interface" = [n]
  active : (t'.get "dhcp" r "ignore").head? ≠ some "1"
  elsewhere : Elsewhere "dhcp" t t'
  others : ∃ c c' old new, t.mem "dhcp" = some c ∧ t'.mem "dhcp" = some c' ∧
    c'.find r = some new ∧ Config.Becomes new old c.sections c'.sections
  again : ∀ extra', extra'.Perm extra → ∀ start,
    Repeats Tree.Alike (getOrCreateDhcpPool n extra' start) t' r

/-- An edit at a listed address changes one section. -/
theorem becomes_update {f : Table (List String) → Table (List String)}
    (hx : (r, s) ∈ c.listed "dhcp") :
    (c.update r f).find r = some (s.edit f) ∧
      Config.Becomes (s.edit f) (some s) c.sections (c.update r f).sections := by
  refine ⟨by rw [Config.find_update_self, Config.find_of_mem_listed hx]; rfl, ?_⟩
  obtain ⟨e, he, -, heq⟩ := Config.mem_listed.1 hx
  obtain ⟨rfl, rfl⟩ := Prod.mk.inj heq
  obtain ⟨a, b, hsplit⟩ := List.append_of_mem he
  exact ⟨_, _, Config.sections_of_split hsplit,
    Config.sections_of_split (Config.entries_update_ownRef hsplit)⟩

/-- One that was made comes at the end. -/
theorem becomes_push {f : Table (List String) → Table (List String)} (hr : Plain r) (hne : r ≠ "")
    (hnone : c.find r = none) :
    Config.Becomes (Section.edit ⟨"dhcp", r, ∅⟩ f) none c.sections
      ((c.push "dhcp" r).update r f).sections := by
  have hnew := Config.find_push_self hr (show '[' ∉ "dhcp".toList by decide) hnone
  rcases Config.entries_push c "dhcp" r with hsame | ⟨i, hi⟩
  · rw [hsame, hnone] at hnew
    cases hnew
  · have hedit := Config.entries_update_ownRef (f := f) (b := []) hi
    rw [Config.ownRef_of_named hne] at hedit
    show _ = _
    rw [Config.sections_of_split hedit, Config.entries_snd, List.map_nil]

theorem poolServes {h' : Host} (hn : Plain n) (hne : n ≠ "") (hextra : Harmless extra)
    (hkeys : extra.Pairwise fun w w' => w.1 ≠ w'.1)
    (hrun : getOrCreateDhcpPool n extra start h = .ok r h') :
    PoolServes n extra h.tree h'.tree r := by
  obtain ⟨c, c₀, f, a, s, b, hmem, hstart, hsplit, hbefore, hopen, hmem', hdirty⟩ :=
    leaves_getOrCreateDhcpPool hn hne h r h' hrun
  have hchosen := chosen_update hextra hsplit hbefore hopen
  have hx : (r, s) ∈ c₀.listed "dhcp" := by simp [hsplit]
  have hbound : Within (Edits ["dhcp"] ["dhcp"]) (getOrCreateDhcpPool n extra start) :=
    within_getOrCreateDhcpPool (by simp) (by simp)
  have hchanged : ∃ old new, (c₀.update r (putAll (poolWrites n extra) ∘ f)).find r = some new ∧
      Config.Becomes new old c.sections (c₀.update r (putAll (poolWrites n extra) ∘ f)).sections := by
    rcases hstart with rfl | ⟨hnone, hr, hre, rfl⟩
    · exact ⟨_, _, becomes_update hx⟩
    · have hs : s = ⟨"dhcp", r, ∅⟩ := by
        have hfound := Config.find_of_mem_listed hx
        rw [Config.find_push_self hr (by decide) hnone] at hfound
        exact (Option.some.inj hfound).symm
      exact ⟨none, _, (becomes_update hx).1, hs ▸ becomes_push hr hre hnone⟩
  have hread := hchosen
  obtain ⟨a', s', b', hsplit', -, hserves, hignored, -⟩ := hread
  have hx' : (r, s') ∈ (c₀.update r (putAll (poolWrites n extra) ∘ f)).listed "dhcp" := by
    rw [hsplit']
    simp
  have hget : ∀ o, h'.tree.get "dhcp" r o = s'.get o := by
    intro o
    rw [Tree.get_of_mem hmem']
    exact Config.get_of_mem_listed hx' o
  obtain ⟨old, new, hfind, hbecomes⟩ := hchanged
  refine ⟨by rw [hget, hserves], ?_, elsewhere_of_edits (hbound.ok hrun),
    ⟨c, _, old, new, hmem, hmem', hfind, hbecomes⟩, fun extra' hperm start' =>
      hchosen.repeats hne hmem' hdirty hkeys hperm⟩
  rw [hget]
  intro hno
  rw [isIgnored, hno] at hignored
  cases hignored

/-! ## Zones -/

/-- **The zone serves the network**, nothing but it was added, and asked for
again it is given again and nothing changes. -/
structure ZoneServes (n : String) (t t' : Tree) (r : String) : Prop where
  lists : ∃ z ∈ zones t', z.name.head? = some r ∧ n ∈ z.network
  elsewhere : Elsewhere "firewall" t t'
  others : ∃ c c', t.mem "firewall" = some c ∧ t'.mem "firewall" = some c' ∧
    (c' = c ∨ ∃ new, c'.sections = c.sections ++ [new])
  again : Repeats Eq (getOrCreateZone n) t' r

/-- **The first zone that lists the network, if there is one, has a name.** -/
def NamedFirst (t : Tree) (n : String) : Prop :=
  ∀ z ∈ (zones t).find? fun z => n ∈ z.network, z.name.head?.getD "" ≠ ""

instance (t : Tree) (n : String) : Decidable (NamedFirst t n) := by
  unfold NamedFirst
  infer_instance

/-- A zone that serves the network under a name is found, and nothing is
done. -/
theorem repeats_getOrCreateZone (hne : n ≠ "") (hmem : t.mem "firewall" = some c)
    (hserved : servingZone t n ≠ "") :
    Repeats Eq (getOrCreateZone n) t (servingZone t n) := by
  rintro h rfl
  have hfor : Sure (zoneNameFor n) h fun z h' => z = servingZone h.tree n ∧ h'.tree = h.tree := by
    refine (sure_getSections hmem).saying.bind ?_
    rintro sections h₁ ⟨rfl, htree⟩
    refine sure_tree_bind ?_
    rw [htree, servingZone_of_mem hmem]
    cases (c.refs "zone").find? fun s => n ∈ h.tree.get "firewall" s "network" with
    | none => exact sure_pure ⟨rfl, htree⟩
    | some s => exact sure_pure ⟨rfl, htree⟩
  unfold getOrCreateZone
  rw [if_neg hne]
  refine hfor.bind ?_
  rintro z h₁ ⟨rfl, htree⟩
  rw [if_pos hserved]
  exact sure_pure ⟨rfl, htree.symm⟩

theorem servingZone_append {z : Zone} {n : String} {t : Tree}
    (h : (zones t).find? (fun z => n ∈ z.network) = some z) :
    servingZone t n = z.name.head?.getD "" := by rw [servingZone, h]

/-- **A zone is given again exactly where the first that lists the network
has a name.** -/
theorem zoneServes_iff {h' : Host} (hn : Plain n) (hne : n ≠ "")
    (hrun : getOrCreateZone n h = .ok r h') :
    ZoneServes n h.tree h'.tree r ↔ NamedFirst h.tree n := by
  have hbound : Within (Edits ["firewall"] ["firewall"]) (getOrCreateZone n) :=
    within_getOrCreateZone (by simp) (by simp)
  have helsewhere := elsewhere_of_edits (hbound.ok hrun)
  have hfirewall : ∃ c, h.tree.mem "firewall" = some c := by
    rw [getOrCreateZone, if_neg hne] at hrun
    obtain ⟨z, h₁, hfor, -⟩ := bind_eq_ok.1 hrun
    exact (leaves_zoneNameFor h z h₁ hfor).2.2
  rcases leaves_makeZone hn hne h r h' hrun with
    ⟨hserved, rfl, htree⟩ | ⟨hunserved, c, k, i, hmem, rfl, -, -, hstands⟩
  · obtain ⟨c, hmem⟩ := hfirewall
    refine iff_of_true ⟨?_, helsewhere, ⟨c, c, hmem, htree ▸ hmem, .inl rfl⟩, ?_⟩ fun z hz => ?_
    · cases hfind : (zones h.tree).find? fun z => n ∈ z.network with
      | none => rw [servingZone, hfind] at hserved; exact absurd rfl hserved
      | some z =>
          have hserving := servingZone_append hfind
          refine ⟨z, htree ▸ List.mem_of_find?_eq_some hfind, ?_, by simpa using List.find?_some hfind⟩
          rw [hserving] at hserved ⊢
          cases hname : z.name.head? with
          | none => rw [hname] at hserved; exact absurd rfl hserved
          | some name => rfl
    · rw [htree]
      exact repeats_getOrCreateZone hne hmem hserved
    · rwa [← servingZone_append hz]
  · have hzones : zones h'.tree = zones h.tree ++ [⟨[numbered n k], [n]⟩] := by
      rw [zones_of_stands hstands (Section.writes_type _ _), ← zones_of_mem hmem, zoneOf_newZone]
    obtain ⟨c', hmem', hsplit⟩ := hstands
    cases hfind : (zones h.tree).find? fun z => n ∈ z.network with
    | none =>
        have hserving : servingZone h'.tree n = numbered n k := by
          rw [servingZone, hzones, List.find?_append, hfind]
          simp
        refine iff_of_true ⟨⟨⟨[numbered n k], [n]⟩, by rw [hzones]; simp, rfl, by simp⟩, helsewhere,
          ⟨c, c', hmem, hmem', .inr ⟨newZone n (numbered n k), ?_⟩⟩, ?_⟩ fun z hz => ?_
        · rw [Config.sections_of_split hsplit, Config.entries_snd]
          rfl
        · have hagain := repeats_getOrCreateZone hne hmem'
            (by rw [hserving]; exact (plain_numbered hn hne k).2)
          rwa [hserving] at hagain
        · rw [hfind] at hz
          cases hz
    | some z =>
        have hnameless : z.name.head?.getD "" = "" := (servingZone_append hfind).symm.trans hunserved
        refine iff_of_false (fun hserves => ?_) fun hnamed => hnamed z hfind hnameless
        -- asked again where nothing is refused, the helper makes one more
        have hagain := hserves.again ⟨h'.tree, 0, ⟨fun _ => false, fun _ _ => false⟩⟩ rfl
        obtain ⟨r', h'', hrun', -, hsame⟩ := hagain.ok fun _ => rfl
        have hunserved' : servingZone h'.tree n = "" := by
          rw [servingZone, hzones, List.find?_append, hfind]
          exact hnameless
        rcases leaves_getOrCreateZone hn hne _ r' h'' hrun' with ⟨hserved', -⟩ | ⟨-, k', -, -, hmore, -⟩
        · exact hserved' hunserved'
        · have hlength := congrArg List.length hmore
          rw [← hsame] at hlength
          simp at hlength

/-! ## Names -/

/-- A base has a name that is free, whatever names are in use. -/
theorem exists_free (used : String → Bool) {l : List String}
    (hused : ∀ k, used (numbered n k) = true → numbered n k ∈ l) :
    ∃ k, used (numbered n k) = false := by
  by_contra hall
  have hnodup : ((List.range (l.length + 1)).map (numbered n)).Nodup :=
    List.Nodup.map (fun _ _ => numbered_injective n) List.nodup_range
  have hsub : (List.range (l.length + 1)).map (numbered n) ⊆ l := by
    intro name hname
    obtain ⟨k, -, rfl⟩ := List.mem_map.1 hname
    exact hused k (by simpa using not_exists.1 hall k)
  have hle := hnodup.length_le_of_subset hsub
  rw [List.length_map, List.length_range] at hle
  omega

theorem zoneName_free (hn : Plain n) (hne : n ≠ "") (t : Tree) :
    ∃ k, (zoneNamed t (numbered n k) || sectionNamed t (numbered n k)) = false := by
  cases hmem : t.mem "firewall" with
  | none => exact ⟨0, by simp [zoneNamed, zones, sectionNamed, Tree.kind, hmem]⟩
  | some c =>
      exact exists_free (fun name => zoneNamed t name || sectionNamed t name)
        fun k => used_mem hmem hn hne

theorem poolName_free (hn : Plain n) (hne : n ≠ "") (t : Tree) :
    ∃ k, t.found "dhcp" (numbered n k) = false := by
  cases hmem : t.mem "dhcp" with
  | none => exact ⟨0, by simp [Tree.found, hmem]⟩
  | some c =>
      refine exists_free (t.found "dhcp") (l := c.sections.map Section.name) fun k hk => ?_
      obtain ⟨hplain, hke⟩ := plain_numbered hn hne k
      rw [Tree.found, hmem] at hk
      obtain ⟨s, hfind⟩ := Option.isSome_iff_exists.1 hk
      obtain ⟨hs, hname⟩ := (Config.find_eq_some_iff hplain hke).1 hfind
      exact List.mem_map.2 ⟨s, hs, hname⟩

/-- **Asked for twice.** A pool is given again, and so is a zone exactly where
the first zone that lists the network has a name; the search for a name of a
new one ends, and neither helper gives up but where one of its calls fails. -/
theorem getOrCreate_idempotent (hn : Plain n) (hne : n ≠ "") :
    (∀ h r h', getOrCreateZone n h = .ok r h' →
      (ZoneServes n h.tree h'.tree r ↔ NamedFirst h.tree n)) ∧
    (∀ extra start h r h', Harmless extra → (extra.Pairwise fun w w' => w.1 ≠ w'.1) →
      getOrCreateDhcpPool n extra start h = .ok r h' → PoolServes n extra h.tree h'.tree r) ∧
    (∀ t : Tree, (∃ k, (zoneNamed t (numbered n k) || sectionNamed t (numbered n k)) = false) ∧
      ∃ k, t.found "dhcp" (numbered n k) = false) ∧
    ∀ h extra start, Relays (getOrCreateZone n) h ∧ Relays (getOrCreateDhcpPool n extra start) h :=
  ⟨fun _ _ _ hrun => zoneServes_iff hn hne hrun,
    fun _ _ _ _ _ hextra hkeys hrun => poolServes hn hne hextra hkeys hrun,
    fun t => ⟨zoneName_free hn hne t, poolName_free hn hne t⟩,
    fun _ _ _ => ⟨relays_getOrCreateZone hn hne, relays_getOrCreateDhcpPool hn hne⟩⟩

/-- One zone and one ignored pool, for `lan`. -/
def lanServices (zone : Table (List String)) : Host where
  tree :=
    { mem := fun config =>
        if config = "firewall" then
          some ⟨[⟨"zone", "", zone⟩], by simp [Plain], by simp, List.pairwise_singleton _ _⟩
        else if config = "dhcp" then
          some ⟨[⟨"dhcp", "lan", ((∅ : Table _).insert "interface" ["lan"]).insert "ignore" ["1"]⟩],
            by simp [Plain], by simp, List.pairwise_singleton _ _⟩
        else none
      disk := fun _ => none
      dirty := fun _ => false }
  tick := 0
  fate := ⟨fun _ => false, fun _ _ => false⟩

def lanZone : Table (List String) := (∅ : Table _).insert "network" ["lan"]

theorem getOrCreate_idempotent_lan : ∃ h₁ h₂ : Host,
    ZoneServes "lan" (lanServices (lanZone.insert "name" ["lan"])).tree h₁.tree "lan" ∧
      PoolServes "lan" [("dhcp_option", ["3"])] (lanServices lanZone).tree h₂.tree "lan" := by
  obtain ⟨hzone, hpool, -⟩ := getOrCreate_idempotent (n := "lan") (by decide) (by decide)
  refine ⟨_, _, (hzone (lanServices (lanZone.insert "name" ["lan"])) "lan" _ rfl).2 (by decide +kernel),
    hpool [("dhcp_option", ["3"])] 0 (lanServices lanZone) "lan" _
      (by simp [Harmless]) (by simp) rfl⟩

/-- A zone without a name: every call makes one more. -/
theorem zone_made_again : ∃ r h', getOrCreateZone "lan" (lanServices lanZone) = .ok r h' ∧
    ¬ ZoneServes "lan" (lanServices lanZone).tree h'.tree r := by
  have hends : succeeds (getOrCreateZone "lan") (lanServices lanZone) = true := by decide +kernel
  cases hrun : getOrCreateZone "lan" (lanServices lanZone) with
  | error e h' =>
      unfold Fallible.succeeds at hends
      rw [hrun] at hends
      cases hends
  | ok r h' =>
      refine ⟨r, h', rfl, fun hserves => ?_⟩
      have hnamed := (zoneServes_iff (by decide) (by decide) hrun).1 hserves
      exact absurd hnamed (by decide +kernel)

end Network

end OpenManet
