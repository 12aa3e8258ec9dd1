import Mathlib.Order.Bounds.Defs
import Nucleus.Memory.PageMap

/-!
Runs of free pages.  The search looks at the pages below a limit one by one and
remembers how many free ones it has just passed; what it finds is the lowest run
of free pages below the limit, and it finds nothing only if there is none.
-/

namespace Nucleus

namespace PageMap

/-- The `count` pages from `first` on are free. -/
def FreeRun (map : PageMap) (first count : Nat) : Prop :=
  ∀ page, first ≤ page → page < first + count → map.isTaken page = false

theorem freeRun_zero (map : PageMap) (first : Nat) : map.FreeRun first 0 := by
  intro page after before
  omega

theorem FreeRun.extend {map : PageMap} {first count page : Nat}
    (free : map.FreeRun first count) (next : first + count = page)
    (pageFree : map.isTaken page = false) : map.FreeRun first (count + 1) := by
  intro other after before
  by_cases here : other = page
  · rw [here, pageFree]
  · exact free other after (by omega)

/-- The search keeps the pages it has just passed as a free run that ends
where it stands. -/
theorem runFrom?_freeRun {map : PageMap} {limit wanted page run first : Nat}
    (passed : run ≤ page) (free : map.FreeRun (page - run) run)
    (found : map.runFrom? limit wanted page run = some first) :
    first + wanted ≤ limit ∧ map.FreeRun first wanted := by
  induction page, run using runFrom?.induct map limit wanted with
  | case1 page run inside taken ih =>
      rw [runFrom?, if_pos inside, if_pos taken] at found
      exact ih (by omega) (freeRun_zero map _) found
  | case2 page run inside vacant complete =>
      rw [runFrom?, if_pos inside, if_neg vacant, if_pos complete] at found
      obtain rfl : page - run = first := Option.some.inj found
      have pageFree : map.isTaken page = false := by simpa using vacant
      rw [← complete]
      exact ⟨by omega, free.extend (by omega) pageFree⟩
  | case3 page run inside vacant incomplete ih =>
      rw [runFrom?, if_pos inside, if_neg vacant, if_neg incomplete] at found
      have pageFree : map.isTaken page = false := by simpa using vacant
      have extended : map.FreeRun (page + 1 - (run + 1)) (run + 1) := by
        rw [Nat.add_sub_add_right]
        exact free.extend (by omega) pageFree
      exact ih (by omega) extended found
  | case4 page run outside =>
      rw [runFrom?, if_neg outside] at found
      cases found

theorem firstRun?_freeRun {map : PageMap} {limit wanted first : Nat}
    (found : map.firstRun? limit wanted = some first) :
    first + wanted ≤ limit ∧ map.FreeRun first wanted :=
  runFrom?_freeRun (Nat.zero_le 0) (freeRun_zero map _) found

/-- A run that does not begin before the pages just passed is still ahead: the
search finds it, or one that begins earlier. -/
theorem exists_runFrom?_eq {map : PageMap} {limit wanted page run start : Nat}
    (short : run < wanted) (ahead : page - run ≤ start)
    (inside : start + wanted ≤ limit) (free : map.FreeRun start wanted) :
    ∃ first ≤ start, map.runFrom? limit wanted page run = some first := by
  induction page, run using runFrom?.induct map limit wanted with
  | case1 page run below taken ih =>
      rw [runFrom?, if_pos below, if_pos taken]
      -- A run that began at or before the taken page would have it inside.
      have past : page < start := by
        refine Nat.lt_of_not_le fun here => ?_
        rw [free page here (by omega)] at taken
        cases taken
      exact ih (Nat.zero_lt_of_lt short) past
  | case2 page run below vacant complete =>
      rw [runFrom?, if_pos below, if_neg vacant, if_pos complete]
      exact ⟨page - run, ahead, rfl⟩
  | case3 page run below vacant incomplete ih =>
      rw [runFrom?, if_pos below, if_neg vacant, if_neg incomplete]
      rw [Nat.add_sub_add_right] at ih
      exact ih (Nat.lt_of_le_of_ne short incomplete) ahead
  | case4 page run beyond => omega

theorem firstRun?_eq_none_iff {map : PageMap} {limit wanted : Nat}
    (positive : 0 < wanted) :
    map.firstRun? limit wanted = none ↔
      ∀ start, start + wanted ≤ limit → ¬ map.FreeRun start wanted := by
  constructor
  · intro nothing start inside free
    obtain ⟨first, _, found⟩ :=
      exists_runFrom?_eq positive (Nat.zero_le start) inside free
    cases nothing.symm.trans found
  · intro missing
    rw [Option.eq_none_iff_forall_ne_some]
    intro first found
    obtain ⟨inside, free⟩ := firstRun?_freeRun found
    exact missing first inside free

theorem isLeast_of_firstRun? {map : PageMap} {limit wanted first : Nat}
    (positive : 0 < wanted)
    (found : map.firstRun? limit wanted = some first) :
    IsLeast {start | start + wanted ≤ limit ∧ map.FreeRun start wanted}
      first := by
  refine ⟨firstRun?_freeRun found, ?_⟩
  rintro start ⟨inside, free⟩
  obtain ⟨lowest, before, lowestFound⟩ :=
    exists_runFrom?_eq positive (Nat.zero_le start) inside free
  obtain rfl := Option.some.inj (found.symm.trans lowestFound)
  exact before

end PageMap

end Nucleus
