import MemShell.Proofs.World.Sinks

/-!
# Redirected channels

The files of the redirects of a command are opened one after the other, each in the world that the
ones before it have left. If they are different, each of them is opened as if it were the only one,
and every channel that is redirected leads to the end of its file, through a handle of its own.
-/

namespace MemShell

namespace Channel

/-- Different channels have different numbers. -/
theorem number_inj {channel other : Channel} (h : channel.number = other.number) :
    channel = other := by
  cases channel <;> cases other <;> first | rfl | exact absurd h (by decide)

end Channel

/-- Nothing comes to a stream that is no channel. -/
theorem sentTo_eq_nil {number : Int} (h : ∀ channel : Channel, channel.number ≠ number)
    (outputs : List (Channel × Text)) : sentTo number outputs = [] := by
  rw [sentTo, List.flatMap_eq_nil_iff]
  exact fun output _ => if_neg (h output.1)

/-! ## Handles of redirected streams -/

namespace StreamSet

variable {streams : StreamSet} {first : Handle} {redirects : List (Int × Redirect)}
  {channel : Channel}

/-- A channel is redirected by its number. -/
theorem handle_redirected (streams : StreamSet) (number : Int) (handle : Handle)
    (channel : Channel) :
    (streams.redirected number handle).handle channel =
      if channel.number = number then handle else streams.handle channel := by
  rw [redirected]
  by_cases hout : number = 1
  · subst hout
    cases channel <;> rfl
  · by_cases herr : number = 2
    · subst herr
      cases channel <;> rfl
    · have hnumber : channel.number ≠ number := by
        cases channel with
        | out => exact Ne.symm hout
        | err => exact Ne.symm herr
      rw [if_neg hout, if_neg herr, if_neg hnumber]

/-- A channel that is not redirected keeps its handle. -/
theorem handle_redirectedFrom_of_none (h : redirects.lookup channel.number = none) :
    (streams.redirectedFrom first redirects).handle channel = streams.handle channel := by
  induction redirects generalizing streams first with
  | nil => rfl
  | cons entry redirects ih =>
    obtain ⟨number, redirect⟩ := entry
    rw [Assoc.lookup_cons_eq_ite] at h
    by_cases hnumber : channel.number = number
    · rw [if_pos hnumber] at h
      cases h
    · rw [if_neg hnumber] at h
      rw [redirectedFrom, ih h, handle_redirected, if_neg hnumber]

/-- A channel that is redirected gets a new handle. -/
theorem le_handle_redirectedFrom (h : redirects.lookup channel.number ≠ none) :
    first ≤ (streams.redirectedFrom first redirects).handle channel := by
  induction redirects generalizing streams first with
  | nil => exact absurd rfl h
  | cons entry redirects ih =>
    obtain ⟨number, redirect⟩ := entry
    rw [redirectedFrom]
    by_cases hrest : redirects.lookup channel.number = none
    · rw [Assoc.lookup_cons_eq_ite, hrest] at h
      split at h
      · next hnumber =>
        have hhandle : ((streams.redirected number first).redirectedFrom (first + 1)
            redirects).handle channel = first := by
          rw [handle_redirectedFrom_of_none hrest, handle_redirected, if_pos hnumber]
        exact Nat.le_of_eq hhandle.symm
      · exact absurd rfl h
    · exact Nat.le_of_succ_le (ih hrest)

/-- The channels have different handles after they have been redirected, if they had before. -/
theorem handle_redirectedFrom_inj
    (hinj : ∀ {channel other}, streams.handle channel = streams.handle other → channel = other)
    (hlt : ∀ channel, streams.handle channel < first) {channel other : Channel}
    (h : (streams.redirectedFrom first redirects).handle channel =
      (streams.redirectedFrom first redirects).handle other) : channel = other := by
  induction redirects generalizing streams first with
  | nil => exact hinj h
  | cons entry redirects ih =>
    obtain ⟨number, redirect⟩ := entry
    refine ih (fun {channel other} heq => ?_) (fun channel => ?_) h
    · rw [handle_redirected, handle_redirected] at heq
      split at heq
      · next hnumber =>
        split at heq
        · next hsame => exact Channel.number_inj (hnumber.trans hsame.symm)
        · exact absurd heq (Nat.ne_of_gt (hlt other))
      · split at heq
        · exact absurd heq (Nat.ne_of_lt (hlt channel))
        · exact hinj heq
    · rw [handle_redirected]
      split
      · exact Nat.lt_succ_self first
      · exact Nat.lt_succ_of_lt (hlt channel)

end StreamSet

/-! ## Opening the files of redirects -/

/-- The places of the files of redirects. -/
def placesOf (cwd : Text) (redirects : List (Int × Redirect)) : List (List Text) :=
  redirects.map fun entry => (entry.2.path cwd).parts

/-- The file of a redirect is opened to be written. -/
theorem RedirectMode.openMode_ne_read (mode : RedirectMode) : mode.openMode ≠ .read := by
  cases mode <;> nofun

/-- What is seen of a file that is opened depends on what was seen of it before. -/
theorem FileMap.touch_congr {map other : FileMap} {place : List Text} (h : map place = other place)
    (mode : OpenMode) : map.touch place mode place = other.touch place mode place := by
  rw [touch, touch, h]

namespace World

variable {world : World} {cwd : Text} {redirects : List (Int × Redirect)}

/-- The numbers stay apart when a file is opened. -/
theorem numbered_opened (h : world.files.Numbered) (target : Path) (mode : OpenMode) :
    (world.opened target mode).files.Numbered :=
  (world.step_spec (.call (.openAt target mode))).2 h

/-- Files at different places that can each be opened can be opened one after the other. -/
theorem opensAll_of_canOpen (hnumbered : world.files.Numbered)
    (hplaces : (placesOf cwd redirects).Nodup)
    (hcan : ∀ entry ∈ redirects, FileMap.CanOpen world.files.look (entry.2.path cwd)) :
    world.OpensAll cwd redirects := by
  induction redirects generalizing world with
  | nil => trivial
  | cons entry redirects ih =>
    obtain ⟨number, redirect⟩ := entry
    obtain ⟨hfirst, hrest⟩ := List.nodup_cons.1 hplaces
    obtain ⟨hcanFirst, hcanRest⟩ := List.forall_mem_cons.1 hcan
    obtain ⟨stream, files, hopen⟩ :=
      (FileSystem.exists_openAt_iff redirect.mode.openMode_ne_read).2 hcanFirst
    refine ⟨⟨stream, files, hopen⟩, ih (numbered_opened hnumbered _ _) hrest ?_⟩
    intro entry hentry
    rw [(keeps_opened hnumbered hopen).1]
    refine (hcanRest entry hentry).touch (fun heq => hfirst ?_) _
    exact List.mem_map.2 ⟨entry, hentry, heq⟩

/-- Opening files changes nothing else. -/
theorem OpensAll.keeps (h : world.OpensAll cwd redirects) (hnumbered : world.files.Numbered) :
    world.KeepsBeside (fun _ => False) (· ∈ placesOf cwd redirects)
      (world.run (openings cwd redirects)) := by
  induction redirects generalizing world with
  | nil => exact .refl
  | cons entry redirects ih =>
    obtain ⟨number, redirect⟩ := entry
    obtain ⟨⟨stream, files, hopen⟩, hrest⟩ := h
    have hfirst := (keeps_opened hnumbered hopen).2
    have hlater := ih hrest (numbered_opened hnumbered _ _)
    refine (hfirst.mono (fun _ => id) ?_).trans (hlater.mono (fun _ => id) ?_)
    · rintro _ rfl
      exact List.mem_cons_self
    · exact fun _ => List.mem_cons_of_mem _

/-- Each file is made or emptied where it has to be. -/
theorem OpensAll.look (h : world.OpensAll cwd redirects) (hnumbered : world.files.Numbered)
    (hplaces : (placesOf cwd redirects).Nodup) {entry : Int × Redirect}
    (hentry : entry ∈ redirects) :
    (world.run (openings cwd redirects)).files.look (entry.2.path cwd).parts =
      FileMap.touch world.files.look (entry.2.path cwd).parts entry.2.mode.openMode
        (entry.2.path cwd).parts := by
  induction redirects generalizing world with
  | nil => exact absurd hentry List.not_mem_nil
  | cons first redirects ih =>
    obtain ⟨⟨stream, files, hopen⟩, hrest⟩ := h
    obtain ⟨hfirst, hplaces⟩ := List.nodup_cons.1 hplaces
    have hnumbered' := numbered_opened hnumbered (first.2.path cwd) first.2.mode.openMode
    obtain ⟨hlook, hkeeps⟩ := keeps_opened hnumbered hopen
    rcases List.mem_cons.1 hentry with rfl | hentry
    · exact ((hrest.keeps hnumbered').look hfirst).trans (congrFun hlook _)
    · refine (ih hrest hnumbered' hplaces hentry).trans (FileMap.touch_congr (hkeeps.look ?_) _)
      exact fun heq => hfirst (List.mem_map.2 ⟨entry, hentry, heq⟩)

/-- A channel that is redirected leads to the end of its file. -/
theorem OpensAll.leadsTo (h : world.OpensAll cwd redirects) (hnumbered : world.files.Numbered)
    (hplaces : (placesOf cwd redirects).Nodup) (hkeys : (Assoc.keys redirects).Nodup)
    {channel : Channel} {redirect : Redirect}
    (hredirect : redirects.lookup channel.number = some redirect) (streams : StreamSet) :
    (world.run (openings cwd redirects)).LeadsTo
      ((streams.redirectedFrom world.endpoints.length redirects).handle channel)
      (Sink.ofView (redirect.path cwd).parts
        (FileMap.touch world.files.look (redirect.path cwd).parts redirect.mode.openMode
          (redirect.path cwd).parts)) := by
  induction redirects generalizing world streams with
  | nil => cases hredirect
  | cons first redirects ih =>
    obtain ⟨number, target⟩ := first
    obtain ⟨⟨stream, files, hopen⟩, hrest⟩ := h
    obtain ⟨hfirst, hplaces⟩ := List.nodup_cons.1 hplaces
    obtain ⟨hnew, hkeys⟩ := List.nodup_cons.1 hkeys
    have hnumbered' := numbered_opened hnumbered (target.path cwd) target.mode.openMode
    obtain ⟨hlook, hkeeps⟩ := keeps_opened hnumbered hopen
    rw [Assoc.lookup_cons_eq_ite] at hredirect
    by_cases hnumber : channel.number = number
    · rw [if_pos hnumber] at hredirect
      cases hredirect
      have hnone : redirects.lookup channel.number = none := by
        rw [hnumber]
        exact Assoc.lookup_eq_none_iff.2 hnew
      rw [StreamSet.redirectedFrom, StreamSet.handle_redirectedFrom_of_none hnone,
        StreamSet.handle_redirected, if_pos hnumber]
      have hleads := leadsTo_opened hnumbered redirect.mode.openMode_ne_read hopen
      refine hleads.keep (hrest.keeps hnumbered') not_false fun place hplace => ?_
      rwa [(Sink.place?_ofView_eq_some_iff.1 hplace).1]
    · rw [if_neg hnumber] at hredirect
      have hmem : (redirect.path cwd).parts ∈ placesOf cwd redirects :=
        List.mem_map.2 ⟨_, (Assoc.lookup_eq_some_iff hkeys).1 hredirect, rfl⟩
      have hplace : (redirect.path cwd).parts ≠ (target.path cwd).parts := by
        intro heq
        rw [heq] at hmem
        exact hfirst hmem
      have hlength : (world.opened (target.path cwd) target.mode.openMode).endpoints.length =
          world.endpoints.length + 1 := by
        rw [opened_ok hopen, List.length_append, List.length_singleton]
      have hleads := ih hrest hnumbered' hplaces hkeys hredirect
        (streams.redirected number world.endpoints.length)
      rw [FileMap.touch_congr (hkeeps.look hplace), hlength] at hleads
      exact hleads

end World

end MemShell
