import Mathlib.Data.List.Induction
import WebhookTrader.Common.Since
import WebhookTrader.Risk.Breaker

/-!
# The daily and the weekly sum

The manager knows a new day by its number in the year, and a new week by a
call that comes on a Monday. So it misses a day that has the number of the
last one, and a week no call of which comes on its Monday; a sum that is
zero by then is not spoilt by that.
-/

namespace WebhookTrader

namespace RiskCall

variable {α : Type}

/-- The profit a call tells of. -/
def pnl : TimedCall α → ℚ
  | (_, tradeClosed pnl) => pnl
  | _ => 0

/-- **The profit since a time**, in sum. -/
def pnlSince (start : ℕ) (calls : List (TimedCall α)) : ℚ :=
  ((calls.filter fun c => start ≤ c.1.system).map pnl).sum

/-- The call is a close or an entry check. -/
def looksAtDay : TimedCall α → Bool
  | (_, updateBalance _) => false
  | _ => true

/-- The calls are in the order of the system clock. -/
def InSystemOrder (calls : List (TimedCall α)) : Prop :=
  calls.Pairwise fun c c' => c.1.system ≤ c'.1.system

end RiskCall

namespace Clock

/-- 00:00 of the day. -/
def midnight (now : Clock) : ℕ := Calendar.day now.system * Calendar.daySeconds

/-- 00:00 of the most recent Monday. -/
def weekStart (now : Clock) : ℕ :=
  Calendar.lastMonday (Calendar.day now.system) * Calendar.daySeconds

end Clock

namespace PortfolioRisk

open RiskCall Calendar

variable {α : Type} {cfg : PortfolioConfig} {now : Clock} {r : PortfolioRisk} {start : ℕ}
  {calls past : List (TimedCall α)} {call last : TimedCall α}

/-- **The sums are those of the calendar** after a call. -/
def SumsFollow (cfg : PortfolioConfig) (past : List (TimedCall α)) (call : TimedCall α) : Prop :=
  (after cfg (past ++ [call])).dailyPnl = pnlSince call.1.midnight (past ++ [call]) ∧
    (after cfg (past ++ [call])).weeklyPnl = pnlSince call.1.weekStart (past ++ [call])

/-- **A new day is seen**: its number in the year is another one than the
last call's, or there is nothing to forget. -/
def DaySeen (cfg : PortfolioConfig) (past : List (TimedCall α)) (now : Clock) : Prop :=
  ∀ last ∈ past.getLast?, day last.1.system ≠ day now.system →
    yearDay (day now.system) ≠ yearDay (day last.1.system) ∨ (after cfg past).dailyPnl = 0

/-- **A new week is seen**: the call comes on its Monday, whose number in the
year is neither the last call's nor that of the last weekly reset, or there
is nothing to forget. -/
def WeekSeen (cfg : PortfolioConfig) (past : List (TimedCall α)) (now : Clock) : Prop :=
  ∀ last ∈ past.getLast?, lastMonday (day last.1.system) ≠ lastMonday (day now.system) →
    (weekday (day now.system) = 1 ∧ yearDay (day now.system) ≠ yearDay (day last.1.system) ∧
        (yearDay (day now.system) : ℤ) ≠ (after cfg past).lastWeekDay) ∨
      (after cfg past).weeklyPnl = 0

/-! ## Sums over the calls -/

theorem pnlSince_concat : pnlSince start (past ++ [call]) =
    pnlSince start past + if start ≤ call.1.system then pnl call else 0 := by
  unfold pnlSince
  by_cases h : start ≤ call.1.system
  · simp [List.filter_append, h]
  · simp [List.filter_append, h]

/-- Before the start there is nothing. -/
theorem pnlSince_eq_zero (h : ∀ c ∈ past, c.1.system < start) : pnlSince start past = 0 := by
  have hnil : past.filter (fun c => decide (start ≤ c.1.system)) = [] :=
    List.filter_eq_nil_iff.2 fun c hc => by simpa using h c hc
  rw [pnlSince, hnil]
  rfl

theorem inSystemOrder_concat : InSystemOrder (calls ++ [call]) ↔
    InSystemOrder calls ∧ ∀ c ∈ calls, c.1.system ≤ call.1.system := by
  simp [InSystemOrder, List.pairwise_append]

theorem midnight_le (now : Clock) : now.midnight ≤ now.system := Nat.div_mul_le_self _ _

theorem weekStart_le (now : Clock) : now.weekStart ≤ now.system :=
  (Nat.mul_le_mul_right _ lastMonday_le).trans (Nat.div_mul_le_self _ _)

/-- A time on a day before another is before that one's midnight. -/
theorem lt_of_day_lt {t d : ℕ} (h : day t < d) : t < d * daySeconds := by
  unfold day at h
  exact (Nat.div_lt_iff_lt_mul (by decide)).1 h

/-! ## What a call does to the sums -/

variable (cfg r) in
/-- **The daily reset** on the day after a call. -/
theorem sums_step (h : looksAtDay call = true) :
    (step cfg r call).dailyPnl = (r.checkDailyReset call.1).dailyPnl + pnl call ∧
      (step cfg r call).weeklyPnl = (r.checkDailyReset call.1).weeklyPnl + pnl call ∧
      (step cfg r call).lastDay = (r.checkDailyReset call.1).lastDay := by
  obtain ⟨now, call⟩ := call
  cases call with
  | tradeClosed pnl =>
      simp only [step, onTradeClosed_eq]
      exact ⟨rfl, rfl, rfl⟩
  | updateBalance balance => cases h
  | checkEntry shadow positions e =>
      rcases checkEntry_cases cfg now r shadow positions e with ⟨heq, -⟩ | ⟨heq, -⟩
      · simp only [step, heq, pnl, add_zero, and_self]
      · simp only [step, heq, pnl, add_zero, and_self]

/-- The manager has seen the day of its last call. -/
theorem lastDay_checkDailyReset :
    (r.checkDailyReset now).lastDay = yearDay (day now.system) := by
  unfold checkDailyReset
  dsimp only
  split_ifs with hnew
  · rfl
  · rfl
  · exact (not_not.1 hnew).symm

theorem dailyPnl_checkDailyReset : (r.checkDailyReset now).dailyPnl =
    if (yearDay (day now.system) : ℤ) = r.lastDay then r.dailyPnl else 0 := by
  unfold checkDailyReset
  dsimp only
  split_ifs <;> first | rfl | contradiction

theorem weeklyPnl_checkDailyReset : (r.checkDailyReset now).weeklyPnl =
    if (yearDay (day now.system) : ℤ) ≠ r.lastDay ∧ weekday (day now.system) = 1 ∧
        (yearDay (day now.system) : ℤ) ≠ r.lastWeekDay then 0
    else r.weeklyPnl := by
  unfold checkDailyReset
  dsimp only
  by_cases hnew : (yearDay (day now.system) : ℤ) ≠ r.lastDay
  · rw [if_pos hnew]
    by_cases hmonday : weekday (day now.system) = 1 ∧
        (yearDay (day now.system) : ℤ) ≠ r.lastWeekDay
    · rw [if_pos hmonday, if_pos ⟨hnew, hmonday⟩]
    · rw [if_neg hmonday, if_neg fun h => hmonday h.2]
  · rw [if_neg hnew, if_neg fun h => hnew h.1]

/-- The sums after a call, in terms of the sums before it. -/
theorem sumsFollow_iff_reset (h : looksAtDay call = true) : SumsFollow cfg past call ↔
    ((after cfg past).checkDailyReset call.1).dailyPnl = pnlSince call.1.midnight past ∧
      ((after cfg past).checkDailyReset call.1).weeklyPnl = pnlSince call.1.weekStart past := by
  obtain ⟨hdaily, hweekly, -⟩ := sums_step cfg (after cfg past) h
  rw [SumsFollow, after_concat, hdaily, hweekly, pnlSince_concat, pnlSince_concat,
    if_pos (midnight_le _), if_pos (weekStart_le _), add_left_inj, add_left_inj]

/-- **The first call** finds nothing. -/
theorem sumsFollow_first (h : looksAtDay call = true) : SumsFollow cfg [] call := by
  rw [sumsFollow_iff_reset h, dailyPnl_checkDailyReset, weeklyPnl_checkDailyReset]
  have hnone : ∀ start, pnlSince start ([] : List (TimedCall α)) = 0 := fun _ => rfl
  have hdaily : (after cfg ([] : List (TimedCall α))).dailyPnl = 0 := rfl
  have hweekly : (after cfg ([] : List (TimedCall α))).weeklyPnl = 0 := rfl
  rw [hnone, hnone, hdaily, hweekly, ite_self, ite_self]
  exact ⟨rfl, rfl⟩

section LastCall

variable (hfinal : calls.getLast? = some last)
  (hday : day last.1.system ≤ day call.1.system)
  (hpast : ∀ c ∈ calls, day c.1.system ≤ day last.1.system)
  (hlastDay : (after cfg calls).lastDay = yearDay (day last.1.system))

include hfinal hday hpast hlastDay

/-- **The sum of the day** after a later call. -/
theorem dailySum_iff (h : (after cfg calls).dailyPnl = pnlSince last.1.midnight calls) :
    ((after cfg calls).checkDailyReset call.1).dailyPnl = pnlSince call.1.midnight calls ↔
      DaySeen cfg calls call.1 := by
  rw [dailyPnl_checkDailyReset, hlastDay]
  simp only [DaySeen, hfinal, Option.mem_some_iff, forall_eq']
  by_cases hsame : day last.1.system = day call.1.system
  · have hmidnight : call.1.midnight = last.1.midnight := by
      rw [Clock.midnight, Clock.midnight, hsame]
    rw [← hsame, if_pos rfl, hmidnight]
    exact iff_of_true h fun hne => absurd rfl hne
  · have hlt : day last.1.system < day call.1.system := lt_of_le_of_ne hday hsame
    have hzero : pnlSince call.1.midnight calls = 0 :=
      pnlSince_eq_zero fun c hc => lt_of_day_lt ((hpast c hc).trans_lt hlt)
    simp only [hzero, Int.natCast_inj]
    split_ifs with hyear
    · refine ⟨fun hdaily _ => .inr hdaily, fun hseen => ?_⟩
      exact (hseen hsame).resolve_left fun hne => hne hyear
    · exact iff_of_true rfl fun _ => .inl hyear

/-- **The sum of the week** after a later call. -/
theorem weeklySum_iff (h : (after cfg calls).weeklyPnl = pnlSince last.1.weekStart calls) :
    ((after cfg calls).checkDailyReset call.1).weeklyPnl = pnlSince call.1.weekStart calls ↔
      WeekSeen cfg calls call.1 := by
  rw [weeklyPnl_checkDailyReset, hlastDay]
  simp only [WeekSeen, hfinal, Option.mem_some_iff, forall_eq']
  by_cases hsame : lastMonday (day last.1.system) = lastMonday (day call.1.system)
  · have hstart : call.1.weekStart = last.1.weekStart := by
      rw [Clock.weekStart, Clock.weekStart, hsame]
    have hkeeps : ¬ ((yearDay (day call.1.system) : ℤ) ≠ yearDay (day last.1.system) ∧
        weekday (day call.1.system) = 1 ∧
        (yearDay (day call.1.system) : ℤ) ≠ (after cfg calls).lastWeekDay) := by
      rintro ⟨hyear, hmonday, -⟩
      -- on the Monday of its week a call has the day of the last one
      have hle := lastMonday_le (d := day last.1.system)
      rw [hsame, lastMonday_of_monday hmonday] at hle
      exact hyear (by rw [le_antisymm hday hle])
    rw [if_neg hkeeps, hstart]
    exact iff_of_true h fun hne => absurd hsame hne
  · have hzero : pnlSince call.1.weekStart calls = 0 :=
      pnlSince_eq_zero fun c hc => lt_of_day_lt ((hpast c hc).trans_lt (lt_lastMonday hday hsame))
    simp only [hzero, ne_eq, Int.natCast_inj]
    split_ifs with hreset
    · exact iff_of_true rfl fun _ => .inl ⟨hreset.2.1, hreset.1, hreset.2.2⟩
    · refine ⟨fun hweekly _ => .inr hweekly, fun hseen => ?_⟩
      exact (hseen hsame).resolve_left fun hmonday =>
        hreset ⟨hmonday.2.1, hmonday.1, hmonday.2.2⟩

end LastCall

/-- **A call after another**, where the sums were those of the calendar. -/
theorem sumsFollow_iff (hlast : looksAtDay last = true) (hcall : looksAtDay call = true)
    (horder : InSystemOrder ((past ++ [last]) ++ [call])) (h : SumsFollow cfg past last) :
    SumsFollow cfg (past ++ [last]) call ↔
      DaySeen cfg (past ++ [last]) call.1 ∧ WeekSeen cfg (past ++ [last]) call.1 := by
  obtain ⟨hbefore, hle⟩ := inSystemOrder_concat.1 horder
  obtain ⟨-, hlatest⟩ := inSystemOrder_concat.1 hbefore
  have hday : day last.1.system ≤ day call.1.system :=
    Nat.div_le_div_right (hle last (List.mem_append_right _ (List.mem_singleton_self _)))
  have hpast : ∀ c ∈ past ++ [last], day c.1.system ≤ day last.1.system := by
    intro c hc
    rcases List.mem_append.1 hc with hold | hnew
    · exact Nat.div_le_div_right (hlatest c hold)
    · rw [List.mem_singleton.1 hnew]
  have hlastDay : (after cfg (past ++ [last])).lastDay = yearDay (day last.1.system) := by
    rw [after_concat, (sums_step _ _ hlast).2.2, lastDay_checkDailyReset]
  have hfinal : (past ++ [last]).getLast? = some last := List.getLast?_concat ..
  rw [sumsFollow_iff_reset hcall]
  exact and_congr (dailySum_iff hfinal hday hpast hlastDay h.1)
    (weeklySum_iff hfinal hday hpast hlastDay h.2)

end PortfolioRisk

open RiskCall PortfolioRisk in
/-- **The sums follow the calendar** just as long as every new day and every
new week is seen. In every sequence of closes and entry checks in the order
of the system clock. -/
theorem sums_follow_calendar_iff {α : Type} (cfg : PortfolioConfig) (calls : List (TimedCall α))
    (hcalls : ∀ call ∈ calls, looksAtDay call = true) (horder : InSystemOrder calls) :
    Throughout (SumsFollow cfg) calls ↔
      Throughout (fun past call => DaySeen cfg past call.1 ∧ WeekSeen cfg past call.1) calls := by
  induction calls using List.reverseRecOn with
  | nil => exact iff_of_true throughout_nil throughout_nil
  | append_singleton past call ih =>
      have hpast : ∀ c ∈ past, looksAtDay c = true := fun c hc =>
        hcalls c (List.mem_append_left _ hc)
      have hcall : looksAtDay call = true :=
        hcalls call (List.mem_append_right _ (List.mem_singleton_self _))
      rw [throughout_concat, throughout_concat, ← ih hpast (inSystemOrder_concat.1 horder).1]
      refine and_congr_right fun hsofar => ?_
      rcases List.eq_nil_or_concat' past with rfl | ⟨past, last, rfl⟩
      · refine iff_of_true (sumsFollow_first hcall) ⟨?_, ?_⟩ <;>
          exact fun last hlast => absurd hlast (Option.not_mem_none last)
      · exact sumsFollow_iff (hpast last (List.mem_append_right _ (List.mem_singleton_self _)))
          hcall horder (throughout_concat.1 hsofar).2

/-! ### Days and weeks that are not seen -/

namespace CalendarRun

/-- A close at noon of a day. -/
def close (day : ℕ) (pnl : ℚ) : TimedCall ℕ :=
  ({ system := day * Calendar.daySeconds + 43200 }, .tradeClosed pnl)

/-- A loss on Friday 2026-03-13 and a profit on the Monday after it. -/
def seen : List (TimedCall ℕ) := [close 20525 (-10), close 20528 5]

/-- The same with the profit on Tuesday. -/
def weekMissed : List (TimedCall ℕ) := [close 20525 (-10), close 20529 5]

/-- The loss on 2025-03-17, and a profit on the same day of the year 2026. -/
def dayMissed : List (TimedCall ℕ) := [close 20164 (-10), close 20529 5]

end CalendarRun

open PortfolioRisk CalendarRun in
theorem sums_follow_calendar_monday : Throughout (SumsFollow {}) seen := by
  refine (sums_follow_calendar_iff {} seen (by decide) ?_).2 ?_
  · unfold RiskCall.InSystemOrder
    decide
  · have hfirst : Throughout (fun past call => DaySeen {} past call.1 ∧ WeekSeen {} past call.1)
        [close 20525 (-10)] := by
      refine throughout_concat.2 ⟨throughout_nil, ?_, ?_⟩ <;>
        exact fun last hlast => absurd hlast (Option.not_mem_none last)
    refine throughout_concat.2 ⟨hfirst, ?_, ?_⟩
    · rintro last hlast -
      obtain rfl := Option.some.inj hlast
      exact .inl (by decide)
    · rintro last hlast -
      obtain rfl := Option.some.inj hlast
      exact .inl (by decide +kernel)

open PortfolioRisk CalendarRun in
/-- **A Monday without a call**: on Tuesday the weekly sum has the loss of
the week before. **A year without a call**: the daily sum has the loss of
the year before. -/
theorem sums_miss_calendar :
    (after {} weekMissed).weeklyPnl = -5 ∧
      RiskCall.pnlSince (close 20529 5).1.weekStart weekMissed = 5 ∧
      (after {} dayMissed).dailyPnl = -5 ∧
      RiskCall.pnlSince (close 20529 5).1.midnight dayMissed = 5 := by
  decide +kernel

end WebhookTrader
