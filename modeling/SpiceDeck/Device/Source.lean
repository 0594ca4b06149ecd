import SpiceDeck.Device.Fault
import SpiceDeck.Text.Utf8

/-!
# Sources and their lines

A source answers one read after another from a list of answers, through a buffer of limited size.
`readLine` takes the bytes of one line from it, its newline included.
-/

namespace SpiceDeck

/-- What a device answers. An answer without bytes says that the end is reached, at least for now. A
read that was interrupted is tried again. -/
inductive Answer
  | bytes (data : Bytes)
  | failure (fault : Fault)
  | interrupted
  deriving DecidableEq

/-- The part of an answer in the measure that reading goes down by. -/
def Answer.weight : Answer → Nat
  | .bytes data => data.length + 1
  | _ => 1

def weightOf : List Answer → Nat
  | [] => 0
  | answer :: rest => answer.weight + weightOf rest

structure Source where
  /-- Answers still to come; after the last one it is the end for ever. -/
  answers : List Answer
  /-- Bytes read from the device and not yet taken. -/
  buffered : Bytes := []
  /-- How many bytes one read brings at most. -/
  capacity : Nat := 8192
  capacity_pos : 0 < capacity := by decide

namespace Source

def ofAnswers (answers : List Answer) : Source := { answers }

def ofBytes (data : Bytes) : Source := ofAnswers [.bytes data]

/-- Reads until the first good answer. At most `capacity` bytes of it are given, and the rest stays
for the next read. -/
def readAnswer (capacity : Nat) : List Answer → Except Fault Bytes × List Answer
  | [] => (.ok [], [])
  | .interrupted :: rest => readAnswer capacity rest
  | .failure fault :: rest => (.error fault, rest)
  | .bytes data :: rest =>
    (.ok (data.take capacity),
      match data.drop capacity with
      | [] => rest
      | more => .bytes more :: rest)

/-- The buffered bytes, with a read before if there are none. No bytes: the end. -/
def fill (s : Source) : Except Fault Bytes × Source :=
  match s.buffered with
  | [] =>
    let (answer, rest) := readAnswer s.capacity s.answers
    (answer, { s with answers := rest, buffered := answer.toOption.getD [] })
  | held => (.ok held, s)

def newline : UInt8 := 0x0A

/-! ## A measure for reading -/

/-- Goes down with every byte that is taken. -/
def weight (s : Source) : Nat := s.buffered.length + weightOf s.answers

theorem readAnswer_weight (n : Nat) (answers : List Answer) (data : Bytes)
    (h : (readAnswer n answers).1 = .ok data) :
    data.length + weightOf (readAnswer n answers).2 ≤ weightOf answers := by
  fun_induction readAnswer n answers with
  | case1 => cases h; simp
  | case2 rest ih => have := ih h; simp only [weightOf, Answer.weight]; omega
  | case3 => cases h
  | case4 bytes rest =>
    cases h
    have := congrArg List.length (List.take_append_drop n bytes)
    simp only [List.length_append] at this
    split
    · simp_all [weightOf, Answer.weight]
    · simp_all [weightOf, Answer.weight]
      omega

theorem fill_ok {s s' : Source} {data : Bytes} (h : s.fill = (.ok data, s')) :
    s'.buffered = data ∧ s'.weight ≤ s.weight := by
  unfold fill at h
  split at h <;> rename_i hb
  · obtain ⟨ha, rfl⟩ := Prod.mk.inj h
    have := readAnswer_weight _ _ _ ha
    simp only [ha, weight, hb, Except.toOption, Option.getD_some]
    simpa using this
  · cases h; exact ⟨rfl, Nat.le_refl _⟩

/-! ## Lines -/

/-- Takes bytes up to a newline, itself included, or up to the end; `taken` is what the line has so
far. A failing read loses what has been taken. -/
def readLineFrom (taken : Bytes) (s : Source) : Except Fault Bytes × Source :=
  match _h : s.fill with
  | (.error fault, s') => (.error fault, s')
  | (.ok [], s') => (.ok taken, s')
  | (.ok (b :: bs), s') =>
    match (b :: bs).dropWhile (· != newline) with
    | _ :: more =>
      (.ok (taken ++ (b :: bs).takeWhile (· != newline) ++ [newline]), { s' with buffered := more })
    | [] => readLineFrom (taken ++ b :: bs) { s' with buffered := [] }
termination_by s.weight
decreasing_by
  obtain ⟨hb, hw⟩ := fill_ok _h
  simp only [weight, hb, List.length_cons, List.length_nil] at hw ⊢
  omega

def readLine (s : Source) : Except Fault Bytes × Source := readLineFrom [] s

theorem readLineFrom_weight (taken : Bytes) (s : Source) (line : Bytes)
    (h : (readLineFrom taken s).1 = .ok line) :
    (readLineFrom taken s).2.weight + line.length ≤ s.weight + taken.length := by
  fun_induction readLineFrom taken s with
  | case1 => cases h
  | case2 taken s s' hf => cases h; have := fill_ok hf; simp only; omega
  | case3 taken s b bs s' hf c more hd =>
    cases h
    obtain ⟨hb, hw⟩ := fill_ok hf
    have hl := congrArg List.length
      (List.takeWhile_append_dropWhile (p := (· != newline)) (l := b :: bs))
    rw [hd] at hl
    simp only [weight, hb, List.length_append, List.length_cons, List.length_nil] at hw hl ⊢
    omega
  | case4 taken s b bs s' hf hd ih =>
    obtain ⟨hb, hw⟩ := fill_ok hf
    have := ih h
    simp only [weight, hb, List.length_append, List.length_cons, List.length_nil] at hw this ⊢
    omega

/-- Whatever line is read, its bytes are gone from the source. -/
theorem readLine_weight {s s' : Source} {line : Bytes} (h : s.readLine = (.ok line, s')) :
    s'.weight + line.length ≤ s.weight := by
  have := readLineFrom_weight [] s line (congrArg Prod.fst h)
  rw [show readLineFrom [] s = (.ok line, s') from h] at this
  exact this

end Source

end SpiceDeck
