import EdvrPatch.Headset.RoundTrip
import EdvrPatch.Installer.LogBundle
import EdvrPatch.OpenXr.LocalConfig

/-! The stamp in a log's name: printed by `Log::open` (`log.cpp`), read back by the bundle
(`logbundle.cpp`), which takes the logs of the newest session by it. -/
namespace EdvrPatch.Installer.LogBundle

open Headset
open OpenXr (wideSize)

def padded (width n : Nat) : Text :=
  (Nat.toDigits 10 n).leftpad width '0'

def dateText (t : SystemTime) : Text :=
  padded 4 t.year ++ (padded 2 t.month ++ padded 2 t.day)

def timeText (t : SystemTime) : Text :=
  padded 2 t.hour ++ (padded 2 t.minute ++ padded 2 t.second)

/-- The second form of a name has the millisecond and the process id behind the stamp. -/
def suffixText : Option (Nat × UInt32) → Text
  | none => []
  | some (ms, pid) => '_' :: (padded 3 ms ++ '_' :: Nat.toDigits 10 pid.toNat)

def stampText (t : SystemTime) (suffix : Option (Nat × UInt32)) : Text :=
  dateText t ++ '_' :: (timeText t ++ (suffixText suffix ++ ['.', 'l', 'o', 'g']))

def maxPath : Nat := 260

def fullPath (dir tag : Text) (t : SystemTime) (suffix : Option (Nat × UInt32)) : Text :=
  dir ++ ['\\', 'e', 'd', 'v', 'r', '_'] ++ tag ++ '_' :: stampText t suffix

/-- As much of a path as so many wide characters hold. -/
def wideTake : Nat → Text → Text
  | _, [] => []
  | n, c :: cs => if wideSize [c] ≤ n then c :: wideTake (n - wideSize [c]) cs else []

def logPath (dir tag : Text) (t : SystemTime) (suffix : Option (Nat × UInt32)) : Text :=
  wideTake (maxPath - 1) (fullPath dir tag t suffix)

def isLeap (year : Nat) : Bool :=
  year % 4 == 0 && (year % 100 != 0 || year % 400 == 0)

def monthDays (year month : Nat) : Nat :=
  if month = 2 then if isLeap year then 29 else 28
  else if month ∈ [4, 6, 9, 11] then 30 else 31

def SystemTime.Valid (t : SystemTime) : Prop :=
  (1601 ≤ t.year ∧ t.year ≤ 30827) ∧ (1 ≤ t.month ∧ t.month ≤ 12) ∧
    (1 ≤ t.day ∧ t.day ≤ monthDays t.year t.month) ∧ t.hour < 24 ∧ t.minute < 60 ∧ t.second < 60

instance (t : SystemTime) : Decidable t.Valid :=
  inferInstanceAs (Decidable (_ ∧ _))

def dayNumber (t : SystemTime) : Nat :=
  let years := t.year - 1601
  365 * years + years / 4 - years / 100 + years / 400 +
    ((List.range' 1 (t.month - 1)).map (monthDays t.year)).sum + (t.day - 1)

def SystemTime.fileTime (t : SystemTime) : Nat :=
  (((dayNumber t * 24 + t.hour) * 60 + t.minute) * 60 + t.second) * 10000000

def systemTimeToFileTime (t : SystemTime) : Option Nat :=
  if t.Valid then some t.fileTime else none

def rfind (name : Text) (c : Char) : Nat → Option Nat
  | 0 => if name[0]? = some c then some 0 else none
  | n + 1 => if name[n + 1]? = some c then some (n + 1) else rfind name c n

/-- Where the stamp ends: at the dot, or in front of three digits and a process id. -/
def stampEnd (name : Text) (dot : Nat) : Nat :=
  match rfind name '_' (dot - 1) with
  | none | some 0 => dot
  | some (p + 1) =>
    match rfind name '_' p with
    | none => dot
    | some ms =>
      if 15 ≤ ms ∧ p + 1 = ms + 4 ∧ p + 2 < dot ∧ ((name.drop (ms + 1)).take 3).all isDigit ∧
          ((name.drop (p + 2)).take (dot - (p + 2))).all isDigit then ms
      else dot

def number (tail : Text) (start count : Nat) : Nat :=
  digitsValue ((tail.drop start).take count)

def readStamp (tail : Text) : Option Nat :=
  if tail[8]? ≠ some '_' ∨ ¬(tail.eraseIdx 8).all isDigit then none
  else
    let st : SystemTime :=
      ⟨number tail 0 4, number tail 4 2, number tail 6 2, number tail 9 2, number tail 11 2,
        number tail 13 2⟩
    if st.month < 1 ∨ 12 < st.month ∨ st.day < 1 ∨ 31 < st.day then none
    else systemTimeToFileTime st

def stampFromName (name : Text) : Option Nat :=
  match rfind name '.' (name.length - 1) with
  | none => none
  | some dot =>
    if dot < 15 then none else readStamp ((name.drop (stampEnd name dot - 15)).take 15)

structure Listed where
  name : Text
  lastWrite : Nat
  isDirectory : Bool
  deriving DecidableEq

/-- The name's stamp first, the write time only when the name does not carry one. -/
def Listed.written (f : Listed) : Nat :=
  (stampFromName f.name).getD f.lastWrite

def secondsBetween (a b : Nat) : Nat :=
  ((a : Int) - b).natAbs / 10000000

def kSessionWindowSeconds : Nat := 180

def newestOf (first : Listed) (logs : List Listed) : Listed :=
  logs.foldl (fun newest log => if newest.written < log.written then log else newest) first

def sessionLogs (listing : List Listed) : List Listed :=
  let logs := listing.filter (!·.isDirectory)
  match logs with
  | [] => []
  | first :: _ =>
    logs.filter fun log =>
      secondsBetween log.written (newestOf first logs).written ≤ kSessionWindowSeconds

theorem rfind_here {name : Text} {c : Char} {n : Nat} (here : name[n]? = some c) :
    rfind name c n = some n := by
  cases n <;> rw [rfind, if_pos here]

theorem rfind_split (front : Text) {mid : Text} (rest : Text) {c : Char} (free : c ∉ mid) :
    rfind (front ++ c :: (mid ++ rest)) c (front.length + mid.length) = some front.length := by
  induction mid using List.reverseRecOn generalizing rest with
  | nil => exact rfind_here (by simp)
  | append_singleton mid d ih =>
    have other : (front ++ c :: (mid ++ [d] ++ rest))[front.length + mid.length + 1]? ≠ some c := by
      have same : d ≠ c := by
        rintro rfl
        simp at free
      rw [List.getElem?_append_right (by omega)]
      simpa [Nat.add_assoc] using same
    have earlier := ih (d :: rest) (by simp_all)
    rw [List.length_append, List.length_singleton, ← Nat.add_assoc, rfind, if_neg other]
    simpa using earlier

theorem padded_digits (width n : Nat) : ∀ c ∈ padded width n, isDigit c = true := by
  intro c mem
  unfold padded List.leftpad at mem
  rcases List.mem_append.mp mem with zero | digit
  · rw [List.eq_of_mem_replicate zero]
    rfl
  · exact isDigit_of_mem_toDigits digit

theorem not_mem_of_digits {s : Text} (digits : ∀ c ∈ s, isDigit c = true) {d : Char}
    (other : isDigit d = false) : d ∉ s := by
  intro mem
  rw [digits d mem] at other
  contradiction

theorem length_padded {width n : Nat} (pos : 0 < width) (fits : n < 10 ^ width) :
    (padded width n).length = width := by
  have short := (Nat.length_toDigits_le_iff (by decide) pos).mpr fits
  rw [padded, List.length_leftpad, Nat.max_eq_left short]

theorem digitsValue_padded (width n : Nat) : digitsValue (padded width n) = n := by
  have zeros (k : Nat) (s : Text) : digitsValue (List.replicate k '0' ++ s) = digitsValue s := by
    induction k with
    | zero => rfl
    | succ _ ih => exact ih
  rw [padded, List.leftpad, zeros, digitsValue_toDigits]

theorem stampEnd_plain (front : Text) {date time : Text} (rest : Text) (dated : date.length = 8)
    (timed : time.length = 6) (noDate : '_' ∉ date) (noTime : '_' ∉ time) :
    stampEnd (front ++ '_' :: (date ++ '_' :: (time ++ rest))) (front.length + 16) =
      front.length + 16 := by
  have last := rfind_split (front ++ '_' :: date) rest noTime
  have before := rfind_split front ('_' :: (time ++ rest)) noDate
  rw [List.length_append, List.length_cons, dated, timed, List.append_assoc,
    List.cons_append] at last
  rw [dated] at before
  have bound : front.length + 16 - 1 = front.length + (8 + 1) + 6 := by omega
  simp only [stampEnd, bound]
  rw [last]
  simp only []
  rw [before]
  exact if_neg (by omega)

theorem stampEnd_suffix (front : Text) {ms pid : Text} (rest : Text) (room : 15 ≤ front.length)
    (three : ms.length = 3) (some_ : pid ≠ []) (msDigits : ∀ c ∈ ms, isDigit c = true)
    (pidDigits : ∀ c ∈ pid, isDigit c = true) :
    stampEnd (front ++ '_' :: (ms ++ '_' :: (pid ++ rest))) (front.length + 5 + pid.length) =
      front.length := by
  have last := rfind_split (c := '_') (front ++ '_' :: ms) rest (not_mem_of_digits pidDigits rfl)
  have before := rfind_split (c := '_') front ('_' :: (pid ++ rest)) (not_mem_of_digits msDigits rfl)
  have long := List.length_pos_iff.mpr some_
  rw [List.length_append, List.length_cons, three, List.append_assoc, List.cons_append] at last
  rw [three] at before
  have bound : front.length + 5 + pid.length - 1 = front.length + (3 + 1) + pid.length := by omega
  have msShape : front ++ '_' :: (ms ++ '_' :: (pid ++ rest)) =
      (front ++ ['_']) ++ (ms ++ '_' :: (pid ++ rest)) := by simp
  have pidShape : front ++ '_' :: (ms ++ '_' :: (pid ++ rest)) =
      (front ++ '_' :: ms ++ ['_']) ++ (pid ++ rest) := by simp
  have width : front.length + 5 + pid.length - (front.length + 3 + 2) = pid.length := by omega
  simp only [stampEnd, bound]
  rw [last]
  simp only []
  rw [before]
  refine if_pos ⟨room, rfl, by omega, ?_, ?_⟩
  · rw [msShape, List.drop_left' (by simp), ← three, List.take_left]
    exact List.all_eq_true.mpr msDigits
  · rw [width, pidShape, List.drop_left' (by simp [three]), List.take_left]
    exact List.all_eq_true.mpr pidDigits

theorem number_append (front rest : Text) {width n : Nat} (long : (padded width n).length = width) :
    number (front ++ (padded width n ++ rest)) front.length width = n := by
  rw [number, List.drop_left, List.take_left' long, digitsValue_padded]

theorem dateText_digits (t : SystemTime) : ∀ c ∈ dateText t, isDigit c = true := by
  simp only [dateText, List.mem_append]
  rintro c (mem | mem | mem) <;> exact padded_digits _ _ c mem

theorem timeText_digits (t : SystemTime) : ∀ c ∈ timeText t, isDigit c = true := by
  simp only [timeText, List.mem_append]
  rintro c (mem | mem | mem) <;> exact padded_digits _ _ c mem

theorem monthDays_le (year month : Nat) : monthDays year month ≤ 31 := by
  unfold monthDays
  split_ifs <;> decide

theorem SystemTime.Valid.widths {t : SystemTime} (valid : t.Valid) (year : t.year ≤ 9999) :
    (padded 4 t.year).length = 4 ∧ (padded 2 t.month).length = 2 ∧
      (padded 2 t.day).length = 2 ∧ (padded 2 t.hour).length = 2 ∧
      (padded 2 t.minute).length = 2 ∧ (padded 2 t.second).length = 2 := by
  obtain ⟨-, months, days, hours, minutes, seconds⟩ := valid
  have most := monthDays_le t.year t.month
  refine ⟨?_, ?_, ?_, ?_, ?_, ?_⟩ <;> apply length_padded <;> omega

theorem readStamp_stamp {t : SystemTime} (valid : t.Valid) (year : t.year ≤ 9999) :
    readStamp (dateText t ++ '_' :: timeText t) = some t.fileTime := by
  obtain ⟨fourYear, twoMonth, twoDay, twoHour, twoMinute, twoSecond⟩ := valid.widths year
  have dated : (dateText t).length = 8 := by simp [dateText, fourYear, twoMonth, twoDay]
  have separated : (dateText t ++ '_' :: timeText t)[8]? = some '_' := by
    rw [List.getElem?_append_right (by omega), dated]
    rfl
  have digits : ((dateText t ++ '_' :: timeText t).eraseIdx 8).all isDigit = true := by
    rw [List.eraseIdx_append_of_length_le (by omega), dated, List.all_append, Bool.and_eq_true]
    exact ⟨List.all_eq_true.mpr (dateText_digits t), List.all_eq_true.mpr (timeText_digits t)⟩
  unfold readStamp
  rw [if_neg (by simp [separated, digits])]
  have month := number_append (padded 4 t.year) (padded 2 t.day ++ '_' :: timeText t) twoMonth
  have day := number_append (padded 4 t.year ++ padded 2 t.month) ('_' :: timeText t) twoDay
  have hour := number_append (dateText t ++ ['_']) (padded 2 t.minute ++ padded 2 t.second) twoHour
  have minute := number_append (dateText t ++ '_' :: padded 2 t.hour) (padded 2 t.second) twoMinute
  have second := number_append (dateText t ++ '_' :: (padded 2 t.hour ++ padded 2 t.minute)) [] twoSecond
  have first := number_append [] (padded 2 t.month ++ (padded 2 t.day ++ '_' :: timeText t)) fourYear
  simp only [dateText, timeText, List.length_append, List.length_cons, List.length_nil,
    List.append_assoc, List.cons_append, List.nil_append, List.append_nil, fourYear, twoMonth,
    twoDay, twoHour, twoMinute, Nat.reduceAdd] at first month day hour minute second ⊢
  simp only [first, month, day, hour, minute, second]
  obtain ⟨-, months, days, -⟩ := id valid
  have most := monthDays_le t.year t.month
  rw [if_neg (by omega), systemTimeToFileTime, if_pos valid]

theorem stampFromName_stamp (front : Text) {t : SystemTime} {suffix : Option (Nat × UInt32)}
    (valid : t.Valid) (year : t.year ≤ 9999) (millis : ∀ x ∈ suffix, x.1 < 1000) :
    stampFromName (front ++ '_' :: stampText t suffix) = some t.fileTime := by
  obtain ⟨fourYear, twoMonth, twoDay, twoHour, twoMinute, twoSecond⟩ := valid.widths year
  have dated : (dateText t).length = 8 := by simp [dateText, fourYear, twoMonth, twoDay]
  have timed : (timeText t).length = 6 := by simp [timeText, twoHour, twoMinute, twoSecond]
  have dot : rfind (front ++ '_' :: stampText t suffix) '.'
      ((front ++ '_' :: stampText t suffix).length - 1) =
      some (front.length + 16 + (suffixText suffix).length) := by
    have found := rfind_split (front ++ '_' :: (dateText t ++ '_' :: (timeText t ++ suffixText suffix)))
      [] (show '.' ∉ ['l', 'o', 'g'] by decide)
    simp only [List.length_append, List.length_cons, List.length_nil, List.append_assoc,
      List.cons_append, List.append_nil, stampText, dated, timed] at found ⊢
    convert found using 2 <;> omega
  have ends : stampEnd (front ++ '_' :: stampText t suffix)
      (front.length + 16 + (suffixText suffix).length) = front.length + 16 := by
    cases suffix with
    | none =>
      exact stampEnd_plain front _ dated timed (not_mem_of_digits (dateText_digits t) rfl)
        (not_mem_of_digits (timeText_digits t) rfl)
    | some x =>
      have behind := stampEnd_suffix (front ++ '_' :: (dateText t ++ '_' :: timeText t))
        ['.', 'l', 'o', 'g'] (by simp; omega) (length_padded (by decide) (millis x rfl))
        (Nat.toDigits_ne_nil (n := x.2.toNat)) (padded_digits 3 x.1) fun c => isDigit_of_mem_toDigits
      simp only [stampText, suffixText, List.length_append, List.length_cons, List.append_assoc,
        List.cons_append, dated, timed, length_padded (show 0 < 3 by decide) (millis x rfl)] at behind ⊢
      convert behind using 2
      omega
  have shape : front ++ '_' :: stampText t suffix = (front ++ ['_']) ++
      ((dateText t ++ '_' :: timeText t) ++ (suffixText suffix ++ ['.', 'l', 'o', 'g'])) := by
    simp [stampText]
  unfold stampFromName
  rw [dot]
  dsimp only
  rw [if_neg (by omega), ends, shape, List.drop_left' (by simp), List.take_left' (by simp [dated, timed]),
    readStamp_stamp valid year]

theorem not_mem_stampText (t : SystemTime) (suffix : Option (Nat × UInt32)) {d : Char}
    (other : isDigit d = false) (plain : d ∉ ['_', '.', 'l', 'o', 'g']) :
    d ∉ '_' :: stampText t suffix := by
  have date := not_mem_of_digits (dateText_digits t) other
  have time := not_mem_of_digits (timeText_digits t) other
  have behind : d ∉ suffixText suffix := by
    cases suffix with
    | none => exact List.not_mem_nil
    | some x =>
      have ms := not_mem_of_digits (padded_digits 3 x.1) other
      have pid := not_mem_of_digits (s := Nat.toDigits 10 x.2.toNat) (fun c => isDigit_of_mem_toDigits) other
      simp_all [suffixText]
  simp_all [stampText]

theorem leafOf_append (path : Text) {s : Text} (noSlash : ∀ c ∈ s, isSlash c = false) :
    leafOf (path ++ s) = leafOf path ++ s := by
  unfold leafOf List.rtakeWhile
  rw [List.reverse_append, List.takeWhile_append_of_pos (by simpa using noSlash)]
  simp

theorem wideTake_of_fits {n : Nat} {s : Text} (fits : wideSize s ≤ n) : wideTake n s = s := by
  induction s generalizing n with
  | nil => rfl
  | cons c cs ih =>
    have split : wideSize (c :: cs) = wideSize [c] + wideSize cs := by simp [wideSize]
    rw [wideTake, if_pos (by omega), ih (by omega)]

structure Logged where
  dir : Text
  tag : Text
  time : SystemTime
  valid : time.Valid
  suffix : Option (Nat × UInt32)
  millis : ∀ x ∈ suffix, x.1 < 1000

def Logged.fullPath (l : Logged) : Text :=
  LogBundle.fullPath l.dir l.tag l.time l.suffix

def Logged.name (l : Logged) : Text :=
  leafOf (logPath l.dir l.tag l.time l.suffix)

theorem Logged.stampFromName_name (l : Logged) (year : l.time.year ≤ 9999)
    (whole : wideSize l.fullPath < maxPath) : stampFromName l.name = some l.time.fileTime := by
  have untorn : logPath l.dir l.tag l.time l.suffix = l.fullPath :=
    wideTake_of_fits (Nat.le_sub_one_of_lt whole)
  have noSlash : ∀ c ∈ '_' :: stampText l.time l.suffix, isSlash c = false := by
    intro c mem
    rw [← Bool.not_eq_true]
    intro slash
    rcases (by simpa [isSlash] using slash : c = '\\' ∨ c = '/') with rfl | rfl
    · exact not_mem_stampText l.time l.suffix rfl (by decide) mem
    · exact not_mem_stampText l.time l.suffix rfl (by decide) mem
  rw [Logged.name, untorn, Logged.fullPath, LogBundle.fullPath, leafOf_append _ noSlash,
    stampFromName_stamp _ l.valid year l.millis]

theorem newestOf_spec (first : Listed) (logs : List Listed) :
    (newestOf first logs = first ∨ newestOf first logs ∈ logs) ∧
      first.written ≤ (newestOf first logs).written ∧
      ∀ log ∈ logs, log.written ≤ (newestOf first logs).written := by
  induction logs generalizing first with
  | nil => simp [newestOf]
  | cons log logs ih =>
    obtain ⟨member, above, all⟩ := ih (if first.written < log.written then log else first)
    have step : newestOf first (log :: logs) =
      newestOf (if first.written < log.written then log else first) logs := rfl
    rw [step]
    split_ifs at member above all ⊢ with later
    · refine ⟨.inr ?_, by omega, ?_⟩
      · rcases member with same | inside
        · simp [same]
        · simp [inside]
      · simpa using ⟨above, all⟩
    · refine ⟨?_, above, ?_⟩
      · rcases member with same | inside
        · exact .inl same
        · exact .inr (by simp [inside])
      · simpa using ⟨by omega, all⟩

def listedOf (f : Logged × Nat) : Listed :=
  ⟨f.1.name, f.2, false⟩

/-- Every stamp comes back from its name, and the bundle takes the logs whose stamps lie within
the window of the latest one. -/
theorem newest_session_of_names (folder : List (Logged × Nat))
    (years : ∀ f ∈ folder, f.1.time.year ≤ 9999)
    (whole : ∀ f ∈ folder, wideSize f.1.fullPath < maxPath) :
    (∀ f ∈ folder, stampFromName f.1.name = some f.1.time.fileTime) ∧
      sessionLogs (folder.map listedOf) = (folder.filter fun f => ∀ g ∈ folder,
        g.1.time.fileTime < f.1.time.fileTime + (kSessionWindowSeconds + 1) * 10000000).map
          listedOf := by
  have stamps (f) (mem : f ∈ folder) := f.1.stampFromName_name (years f mem) (whole f mem)
  have written (f) (mem : f ∈ folder) : (listedOf f).written = f.1.time.fileTime := by
    simp [Listed.written, listedOf, stamps f mem]
  refine ⟨stamps, ?_⟩
  have files : (folder.map listedOf).filter (!·.isDirectory) = folder.map listedOf := by
    apply List.filter_eq_self.mpr
    intro log mem
    obtain ⟨f, -, rfl⟩ := List.mem_map.mp mem
    rfl
  unfold sessionLogs
  rw [files]
  cases folder with
  | nil => rfl
  | cons head rest =>
    obtain ⟨member, -, latest⟩ := newestOf_spec (listedOf head) ((head :: rest).map listedOf)
    obtain ⟨n, inside, same⟩ : ∃ n ∈ head :: rest,
        listedOf n = newestOf (listedOf head) ((head :: rest).map listedOf) := by
      rcases member with first | other
      · exact ⟨head, List.mem_cons_self, first.symm⟩
      · exact List.mem_map.mp other
    rw [← same, written n inside] at latest
    change List.filter (fun log : Listed => decide (secondsBetween log.written
      (newestOf (listedOf head) ((head :: rest).map listedOf)).written ≤ kSessionWindowSeconds)) _ = _
    rw [← same, List.filter_map]
    congr 1
    apply List.filter_congr
    intro f mem
    have newest : ∀ g ∈ head :: rest, g.1.time.fileTime ≤ n.1.time.fileTime := fun g mem => by
      rw [← written g mem]
      exact latest _ (List.mem_map_of_mem mem)
    have own := newest f mem
    apply decide_eq_decide.mpr
    rw [written f mem, written n inside]
    unfold secondsBetween kSessionWindowSeconds
    constructor
    · intro near g mem'
      have := newest g mem'
      omega
    · intro near
      have := near n inside
      omega

/-- The tag looks like a stamp itself, and the suffix like the end of one. -/
def taggedAsStamp : Logged where
  dir := "logs".toList
  tag := "20240101_000000_123_9".toList
  time := ⟨2025, 6, 30, 23, 59, 59⟩
  valid := by decide
  suffix := some (7, 4321)
  millis := by decide

theorem newest_session_of_names_tagged :
    (∀ f ∈ [(taggedAsStamp, 0)], stampFromName f.1.name = some f.1.time.fileTime) ∧
      sessionLogs ([(taggedAsStamp, 0)].map listedOf) =
        ([(taggedAsStamp, 0)].filter fun f => ∀ g ∈ [(taggedAsStamp, 0)],
          g.1.time.fileTime < f.1.time.fileTime + (kSessionWindowSeconds + 1) * 10000000).map
            listedOf :=
  newest_session_of_names [(taggedAsStamp, 0)] (by decide) (by decide)

/-- A year of five digits, and a path that its buffer does not hold. -/
theorem stamp_is_lost :
    stampFromName (leafOf (logPath "logs".toList "gfx".toList ⟨10000, 1, 1, 0, 0, 0⟩ none)) = none ∧
      SystemTime.Valid ⟨10000, 1, 1, 0, 0, 0⟩ ∧
      stampFromName (leafOf (logPath "logs".toList (List.replicate 240 'x')
        ⟨2025, 1, 1, 0, 0, 0⟩ none)) = none ∧
      SystemTime.Valid ⟨2025, 1, 1, 0, 0, 0⟩ := by
  decide +kernel

end EdvrPatch.Installer.LogBundle
