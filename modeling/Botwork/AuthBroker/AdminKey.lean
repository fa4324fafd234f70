import Botwork.Foundations.FiniteMap
import Botwork.Foundations.Lines
import Botwork.Foundations.ReplacedFile
import Botwork.Foundations.Transition

/-!
# The admin key file

`botctl admin-key` replaces the key file, and the broker rereads it when its
modification time has changed.  The time has a finite granularity, so a change can
leave it as it was, and a read that fails is remembered under the time the file had:
both give a wrong key until the file changes again.

## Main definitions

- `parseAdminKeyFromContent`, `validateKey`, `keyFileContent` — the format
- `KeyHost` — the key file, the `botctl` processes, the cache and its calls
- `adminKeyFile` — their steps
- `KeyHost.Agrees` — every call returns a key that the file had during the call
- `KeyHost.Timely` — the steps that keep it

## Main results

- `agrees_iff_timely`
-/

namespace Botwork.AuthBroker

open Botwork.Foundations

-- ════════════════════════════════════════════════════════════════════════
-- The format
-- ════════════════════════════════════════════════════════════════════════

def adminKeyEnvVar : String := "BOTWORK_ADMIN_API_KEY"

/-- The key in one line of the file. -/
def adminKeyOfLine (line : String) : Option String :=
  let line := Text.trim line
  if line.isEmpty || line.toList.head? == some '#' then none
  else
    (((Text.stripPrefix adminKeyEnvVar line).bind (Text.stripPrefix "=")).map Text.trim).filter
      fun val => !val.isEmpty

def parseAdminKeyFromContent (content : String) : Option String :=
  (Text.lines content).findSome? adminKeyOfLine

inductive AdminKeyError where
  | invalidKey (reason : String)
  | fileWrite
  deriving DecidableEq

def validateKey (key : String) : Except AdminKeyError Unit :=
  if key.isEmpty then .error (.invalidKey "key must not be empty")
  else if key.toList.any fun c => Text.isWhitespace c || !decide (c.toNat < 128) || c == '=' then
    .error (.invalidKey
      "key must contain only printable ASCII characters (no whitespace, no '=')")
  else .ok ()

/-- What `write_key` writes. -/
def keyFileContent (key : String) : String := adminKeyEnvVar ++ "=" ++ key ++ "\n"

/-- A character of a UUID. -/
def isUuidChar (c : Char) : Bool :=
  (decide ('0' ≤ c) && decide (c ≤ '9')) || (decide ('a' ≤ c) && decide (c ≤ 'f')) || c == '-'

/-- A key that `generate_key` may draw: two UUIDs and a hyphen. -/
def isDrawn (key : String) : Bool := key.length == 73 && key.toList.all isUuidChar

theorem validateKey_eq_ok {key : String} : validateKey key = .ok () ↔ key.isEmpty = false ∧
    ∀ c ∈ key.toList, Text.isWhitespace c = false ∧ c.toNat < 128 ∧ c ≠ '=' := by
  rw [validateKey]
  split
  next hempty =>
    rw [hempty]
    exact ⟨nofun, fun h => absurd h.1 (by decide)⟩
  next hne =>
    split
    next hany =>
      refine ⟨nofun, fun h => ?_⟩
      obtain ⟨c, hc, hbad⟩ := List.any_eq_true.mp hany
      obtain ⟨hblank, hascii, heq⟩ := h.2 c hc
      simp [hblank, hascii, heq] at hbad
    next hall =>
      refine ⟨fun _ => ⟨by simpa using hne, fun c hc => ?_⟩, fun _ => rfl⟩
      have hgood := List.any_eq_false.mp (Bool.eq_false_iff.mpr hall) c hc
      simp only [Bool.or_eq_true, Bool.not_eq_true', decide_eq_false_iff_not, beq_iff_eq,
        not_or, not_not] at hgood
      exact ⟨by simpa using hgood.1.1, hgood.1.2, hgood.2⟩

theorem validateKey_of_isDrawn {key : String} (h : isDrawn key = true) :
    validateKey key = .ok () := by
  rw [isDrawn, Bool.and_eq_true, beq_iff_eq] at h
  refine validateKey_eq_ok.mpr ⟨?_, fun c hc => ?_⟩
  · rw [← Bool.not_eq_true, String.isEmpty_iff]
    rintro rfl
    exact absurd h.1 (by decide)
  · have huuid := List.all_eq_true.mp h.2 c hc
    have hascii : ∀ n, n < 128 → isUuidChar (Char.ofNat n) = true →
        Text.isWhitespace (Char.ofNat n) = false ∧ Char.ofNat n ≠ '=' := by decide +kernel
    have hlt : c.toNat < 128 := by
      simp only [isUuidChar, Bool.or_eq_true, Bool.and_eq_true, decide_eq_true_eq, beq_iff_eq]
        at huuid
      rcases huuid with (⟨-, hle⟩ | ⟨-, hle⟩) | rfl
      · exact lt_of_le_of_lt (show c.toNat ≤ '9'.toNat from hle) (by decide)
      · exact lt_of_le_of_lt (show c.toNat ≤ 'f'.toNat from hle) (by decide)
      · decide
    have hc := hascii c.toNat hlt
    rw [Char.ofNat_toNat] at hc
    exact ⟨(hc huuid).1, hlt, (hc huuid).2⟩

/-- **Every key that `botctl` accepts is read back.** -/
theorem parse_keyFileContent {key : String} (h : validateKey key = .ok ()) :
    parseAdminKeyFromContent (keyFileContent key) = some key := by
  obtain ⟨hne, hgood⟩ := validateKey_eq_ok.mp h
  have hvar : (adminKeyEnvVar ++ "=").toList.all (!Text.isWhitespace ·) = true := by decide
  -- the line has no white space at all, so no trim changes it
  have hline : ∀ c ∈ (adminKeyEnvVar ++ "=" ++ key).toList, Text.isWhitespace c = false := by
    intro c hc
    rw [String.toList_append] at hc
    rcases List.mem_append.mp hc with hc | hc
    · simpa using List.all_eq_true.mp hvar c hc
    · exact (hgood c hc).1
  have hnot : ∀ c, Text.isWhitespace c = true → c ∉ (adminKeyEnvVar ++ "=" ++ key).toList := by
    intro c hc hmem
    rw [hline c hmem] at hc
    cases hc
  have hhead : (adminKeyEnvVar ++ "=" ++ key).toList.head? = some 'B' := by
    rw [String.toList_append, String.toList_append]
    rfl
  have hkey : adminKeyOfLine (adminKeyEnvVar ++ "=" ++ key) = some key := by
    have hfull : (adminKeyEnvVar ++ "=" ++ key).isEmpty = false := by
      rw [← Bool.not_eq_true, String.isEmpty_iff]
      intro heq
      rw [heq] at hhead
      cases hhead
    simp only [adminKeyOfLine, Text.trim_of_forall hline, hfull, hhead]
    rw [String.append_assoc, Text.stripPrefix_append, Option.bind_some, Text.stripPrefix_append,
      Option.map_some, Text.trim_of_forall fun c hc => (hgood c hc).1]
    simp [hne]
  rw [parseAdminKeyFromContent, keyFileContent,
    Text.lines_append_newline (hnot '\n' (by decide)) (hnot '\r' (by decide))]
  simp [hkey]

-- ════════════════════════════════════════════════════════════════════════
-- The cache and its calls
-- ════════════════════════════════════════════════════════════════════════

/-- A file with its modification time.  A file that is not UTF-8 has no key, as an
    empty one has none. -/
structure KeyText where
  content : String
  mtime : Nat
  deriving DecidableEq

structure AdminKeyFileCache where
  key : Option String
  mtime : Option Nat
  deriving DecidableEq

inductive KeyCommand where
  | set (key : String)
  /-- `key` is what `generate_key` draws -/
  | generate (force : Bool) (key : String)
  deriving DecidableEq

/-- The command is one that a process can have. -/
def KeyCommand.possible : KeyCommand → Bool
  | .set _ => true
  | .generate _ key => isDrawn key

/-- How far a `botctl` process is. -/
inductive KeyRun where
  | creating (key : String)
  | writing (key : String) (inode : Nat)
  | renaming (key : String)
  | returned (result : Except AdminKeyError Unit)
  deriving DecidableEq

/-- How far a call of `current_key` is.  `seen` are the keys that a reader of the file
    would have found at the moments since the call looked for the file. -/
inductive KeyCall where
  /-- there is no file -/
  | clearing (seen : List (Option String))
  | locking (mtime : Option Nat) (seen : List (Option String))
  /-- with the lock -/
  | reading (mtime : Option Nat) (seen : List (Option String))
  | returned (key : Option String) (seen : List (Option String))
  deriving DecidableEq

/-- One more moment of a call in progress. -/
def KeyCall.see (key : Option String) : KeyCall → KeyCall
  | .clearing seen => .clearing (key :: seen)
  | .locking mtime seen => .locking mtime (key :: seen)
  | .reading mtime seen => .reading mtime (key :: seen)
  | .returned result seen => .returned result seen

/-- The keys of a call that is in progress. -/
def KeyCall.window : KeyCall → Option (List (Option String))
  | .clearing seen | .locking _ seen | .reading _ seen => some seen
  | .returned _ _ => none

/-- The key file of a host, with the processes that replace it and the calls that read
    it.  `holder` has the lock of the cache. -/
structure KeyHost where
  now : Nat
  file : ReplacedFile KeyText
  runs : FiniteMap Nat KeyRun
  cache : AdminKeyFileCache
  holder : Option Nat
  calls : FiniteMap Nat KeyCall

inductive KeyAction where
  | tick (elapsed : Nat)
  | botctl (p : Nat) (command : KeyCommand)
  | create (p : Nat)
  | write (p : Nat)
  | rename (p : Nat)
  | fail (p : Nat)
  | delete
  /-- a call begins and stats the file, on a platform with modification times or on
      another one -/
  | stat (t : Nat) (timed : Bool)
  | lock (t : Nat)
  | read (t : Nat)
  | readFail (t : Nat)
  deriving DecidableEq

namespace KeyHost

/-- The key in the file, at this moment. -/
def view (w : KeyHost) : Option String :=
  w.file.published.bind fun text => parseAdminKeyFromContent text.content

/-- The calls in progress see a key. -/
def shown (w : KeyHost) (key : Option String) : KeyHost :=
  { w with calls := w.calls.mapValues (KeyCall.see key) }

/-- The files change, and the calls in progress see what is there now. -/
def put (w : KeyHost) (file : ReplacedFile KeyText) : KeyHost :=
  let w' := { w with file := file }
  w'.shown w'.view

def setRun (w : KeyHost) (p : Nat) (run : KeyRun) : KeyHost :=
  { w with runs := w.runs.insert p run }

def setCall (w : KeyHost) (t : Nat) (call : KeyCall) : KeyHost :=
  { w with calls := w.calls.insert t call }

/-- `cmd_set` and `cmd_generate` up to the file. -/
def start (w : KeyHost) : KeyCommand → KeyRun
  | .set key =>
    match validateKey key with
    | .ok () => .creating key
    | .error err => .returned (.error err)
  | .generate force key =>
    if !force && w.file.published.isSome then .returned (.ok ()) else .creating key

/-- A write through a handle at the start of its file.  Everything `botctl` writes is
    ASCII. -/
def written (g : Nat) (w : KeyHost) (key : String) (inode : Nat) : KeyText :=
  ⟨keyFileContent key ++
      String.ofList ((w.file.contents inode).content.toList.drop (keyFileContent key).length),
    w.now / g⟩

/-- What the call makes of the stat. -/
def statted (w : KeyHost) (timed : Bool) : KeyCall :=
  match w.file.published with
  | none => .clearing [w.view]
  | some text => .locking (if timed then some text.mtime else none) [w.view]

/-- The lock is taken; the cache answers if it has the modification time. -/
def locked (w : KeyHost) (t : Nat) (mtime : Option Nat) (seen : List (Option String)) : KeyHost :=
  if mtime.isSome ∧ w.cache.mtime = mtime then w.setCall t (.returned w.cache.key seen)
  else { w with holder := some t }.setCall t (.reading mtime seen)

/-- The end of a read: what it gives is remembered and returned. -/
def remember (w : KeyHost) (t : Nat) (mtime : Option Nat) (key : Option String)
    (seen : List (Option String)) : KeyHost :=
  { w with cache := ⟨key, mtime⟩, holder := none }.setCall t (.returned key seen)

/-- Modification times are rounded down to multiples of `g`, and counted in it. -/
def next (g : Nat) (w : KeyHost) : KeyAction → Option KeyHost
  | .tick elapsed => some { w with now := w.now + elapsed }
  | .botctl p command =>
    match w.runs.lookup p with
    | none => if command.possible then some (w.setRun p (w.start command)) else none
    | some _ => none
  | .create p =>
    match w.runs.lookup p with
    | some (.creating key) =>
      let created := w.file.create ⟨"", w.now / g⟩
      some ((w.put created.1).setRun p (.writing key created.2))
    | _ => none
  | .write p =>
    match w.runs.lookup p with
    | some (.writing key inode) =>
      some ((w.put (w.file.write inode (w.written g key inode))).setRun p (.renaming key))
    | _ => none
  | .rename p =>
    match w.runs.lookup p with
    | some (.renaming _) =>
      match w.file.rename with
      | some file => some ((w.put file).setRun p (.returned (.ok ())))
      | none => some (w.setRun p (.returned (.error .fileWrite)))
    | _ => none
  | .fail p =>
    match w.runs.lookup p with
    | some (.returned _) | none => none
    | some _ => some (w.setRun p (.returned (.error .fileWrite)))
  | .delete => some (w.put w.file.remove)
  | .stat t timed =>
    match w.calls.lookup t with
    | none => some (w.setCall t (w.statted timed))
    | some _ => none
  | .lock t =>
    match w.holder, w.calls.lookup t with
    | none, some (.clearing seen) =>
      some ({ w with cache := ⟨none, none⟩ }.setCall t (.returned none seen))
    | none, some (.locking mtime seen) => some (w.locked t mtime seen)
    | _, _ => none
  | .read t =>
    match w.calls.lookup t with
    | some (.reading mtime seen) => some (w.remember t mtime w.view seen)
    | _ => none
  | .readFail t =>
    match w.calls.lookup t with
    | some (.reading mtime seen) => some ((w.shown none).remember t mtime none (none :: seen))
    | _ => none

/-- A broker that has just started, next to any key file. -/
def Initial (w : KeyHost) : Prop :=
  w.file.Sound ∧ w.runs = ∅ ∧ w.cache = ⟨none, none⟩ ∧ w.holder = none ∧ w.calls = ∅

/-- The key that a call returns which runs from here on alone. -/
def currentKey (w : KeyHost) : Option String :=
  match w.file.published with
  | none => none
  | some text => if w.cache.mtime = some text.mtime then w.cache.key else w.view

/-- Every call has returned a key that the file had at some moment during the call, and
    so does one that runs from here on alone. -/
def Agrees (w : KeyHost) : Prop :=
  (∀ t key seen, w.calls.lookup t = some (.returned key seen) → key ∈ seen) ∧
    (w.holder = none → w.currentKey = w.view)

/-- The cache does not take the text for another one. -/
def Told (w : KeyHost) (text : KeyText) : Prop :=
  w.holder = none → w.cache.mtime = some text.mtime →
    w.cache.key = parseAdminKeyFromContent text.content

instance (w : KeyHost) (text : KeyText) : Decidable (w.Told text) :=
  inferInstanceAs (Decidable (_ → _ → _))

/-- The published file changes into one that the cache does not take for another one,
    and a read fails only while the file has another modification time than the one
    that is remembered, or no key. -/
def Timely (g : Nat) (w : KeyHost) : KeyAction → Prop
  | .write p =>
    match w.runs.lookup p with
    | some (.writing key inode) => w.file.path = some inode → w.Told (w.written g key inode)
    | _ => True
  | .rename p =>
    match w.runs.lookup p, w.file.tmp with
    | some (.renaming _), some inode => w.Told (w.file.contents inode)
    | _, _ => True
  | .readFail t =>
    match w.calls.lookup t, w.file.published with
    | some (.reading mtime _), some text =>
      mtime = some text.mtime → parseAdminKeyFromContent text.content = none
    | _, _ => True
  | _ => True

instance (g : Nat) (w : KeyHost) (a : KeyAction) : Decidable (w.Timely g a) := by
  cases a <;> dsimp only [Timely] <;> try split
  all_goals infer_instance

end KeyHost

/-- A key file whose modification times have the granularity `g`. -/
def adminKeyFile (g : Nat) : Machine KeyHost KeyAction where
  Start := KeyHost.Initial
  next := KeyHost.next g

namespace KeyHost

variable {g : Nat} {w w' : KeyHost} {t : Nat}

-- ════════════════════════════════════════════════════════════════════════
-- The invariant
-- ════════════════════════════════════════════════════════════════════════

/-- What the steps keep: a call in progress has seen the key that is in the file now,
    and the key the cache has for the modification time it holds. -/
structure Inv (w : KeyHost) : Prop where
  sound : w.file.Sound
  seen : ∀ t call seen, w.calls.lookup t = some call → call.window = some seen → w.view ∈ seen
  clearing : ∀ t seen, w.calls.lookup t = some (.clearing seen) → none ∈ seen
  cached : w.holder = none → ∀ t mtime seen, w.calls.lookup t = some (.locking (some mtime) seen) →
    w.cache.mtime = some mtime → w.cache.key ∈ seen
  agrees : w.Agrees

theorem currentKey_eq_view_iff : w.currentKey = w.view ↔
    ∀ text, w.file.published = some text → w.cache.mtime = some text.mtime →
      w.cache.key = parseAdminKeyFromContent text.content := by
  rw [currentKey, view]
  cases w.file.published with
  | none => exact ⟨fun _ => nofun, fun _ => rfl⟩
  | some text =>
    simp only [Option.some.injEq, Option.bind_some, forall_eq']
    split
    next hm => exact ⟨fun h _ => h, fun h => h hm⟩
    next hm => exact ⟨fun _ h => absurd h hm, fun _ => rfl⟩

/-- The cache is told about the file that is published. -/
theorem told_iff {text : KeyText} (h : w.file.published = some text) :
    w.Told text ↔ (w.holder = none → w.currentKey = w.view) := by
  rw [Told, currentKey_eq_view_iff]
  constructor
  · rintro htold hfree other hother
    rw [h] at hother
    cases hother
    exact htold hfree
  · intro hall hfree
    exact hall hfree text h

theorem lookup_shown (key : Option String) (t : Nat) :
    (w.shown key).calls.lookup t = (w.calls.lookup t).map (KeyCall.see key) :=
  FiniteMap.lookup_mapValues _ _ _

/-- A call in progress has one more key. -/
theorem window_see {key : Option String} {call : KeyCall} {seen : List (Option String)}
    (h : (call.see key).window = some seen) :
    ∃ earlier, call.window = some earlier ∧ seen = key :: earlier := by
  cases call with
  | returned => cases h
  | _ =>
    cases h
    exact ⟨_, rfl, rfl⟩

namespace Inv

theorem of_initial (h : w.Initial) : w.Inv := by
  obtain ⟨hsound, -, hcache, -, hcalls⟩ := h
  have hnone : ∀ t, w.calls.lookup t = none := by
    intro t
    rw [hcalls]
    exact AList.lookup_empty t
  refine ⟨hsound, ?_, ?_, ?_, ?_, ?_⟩
  · intro t call seen h
    rw [hnone] at h
    cases h
  · intro t seen h
    rw [hnone] at h
    cases h
  · intro _ t mtime seen h
    rw [hnone] at h
    cases h
  · intro t key seen h
    rw [hnone] at h
    cases h
  · intro _
    refine currentKey_eq_view_iff.mpr fun text _ hm => ?_
    rw [hcache] at hm
    cases hm

/-- Processes that are on their way and the clock change nothing a call sees. -/
theorem setRun (hw : w.Inv) (p : Nat) (run : KeyRun) : (w.setRun p run).Inv :=
  ⟨hw.sound, hw.seen, hw.clearing, hw.cached, hw.agrees⟩

theorem tick (hw : w.Inv) (now : Nat) : Inv { w with now := now } :=
  ⟨hw.sound, hw.seen, hw.clearing, hw.cached, hw.agrees⟩

/-- The calls in progress see one more key, next to a file that they have seen. -/
theorem see (hw : w.Inv) {file : ReplacedFile KeyText} {key : Option String}
    (hsound : file.Sound)
    (hview : ∀ earlier, w.view ∈ earlier → view { w with file := file } ∈ key :: earlier)
    (htold : ∀ text, file.published = some text → w.Told text) :
    (shown { w with file := file } key).Inv := by
  refine ⟨hsound, ?_, ?_, ?_, ?_, ?_⟩
  · intro t call seen ht hwindow
    obtain ⟨old, hold, rfl⟩ := Option.map_eq_some_iff.mp ((lookup_shown _ t).symm.trans ht)
    obtain ⟨earlier, hearlier, rfl⟩ := window_see hwindow
    exact hview earlier (hw.seen t old earlier hold hearlier)
  · intro t seen ht
    obtain ⟨old, hold, hsee⟩ := Option.map_eq_some_iff.mp ((lookup_shown _ t).symm.trans ht)
    cases old <;> cases hsee
    exact List.mem_cons_of_mem _ (hw.clearing t _ hold)
  · intro hfree t mtime seen ht hm
    obtain ⟨old, hold, hsee⟩ := Option.map_eq_some_iff.mp ((lookup_shown _ t).symm.trans ht)
    cases old <;> cases hsee
    exact List.mem_cons_of_mem _ (hw.cached hfree t mtime _ hold hm)
  · intro t key seen ht
    obtain ⟨old, hold, hsee⟩ := Option.map_eq_some_iff.mp ((lookup_shown _ t).symm.trans ht)
    cases old <;> cases hsee
    exact hw.agrees.1 t key seen hold
  · intro hfree
    exact currentKey_eq_view_iff.mpr fun text htext hm => htold text htext hfree hm

/-- A change of the files that the cache is told about. -/
theorem put (hw : w.Inv) {file : ReplacedFile KeyText} (hsound : file.Sound)
    (htold : ∀ text, file.published = some text → w.Told text) : (w.put file).Inv :=
  hw.see hsound (fun _ _ => List.mem_cons_self) htold

theorem told (hw : w.Inv) {text : KeyText} (h : w.file.published = some text) : w.Told text :=
  (told_iff h).mpr hw.agrees.2

theorem shown (hw : w.Inv) (key : Option String) : (w.shown key).Inv :=
  hw.see hw.sound (fun _ => List.mem_cons_of_mem key) fun _ => hw.told

/-- A call takes a step that leaves file, cache and lock. -/
theorem setCall (hw : w.Inv) {call : KeyCall}
    (hseen : ∀ seen, call.window = some seen → w.view ∈ seen)
    (hclearing : ∀ seen, call = .clearing seen → none ∈ seen)
    (hcached : w.holder = none → ∀ mtime seen, call = .locking (some mtime) seen →
      w.cache.mtime = some mtime → w.cache.key ∈ seen)
    (hreturned : ∀ key seen, call = .returned key seen → key ∈ seen) : (w.setCall t call).Inv := by
  have hcases : ∀ u other, (w.setCall t call).calls.lookup u = some other →
      other = call ∨ w.calls.lookup u = some other := by
    intro u other hu
    by_cases heq : u = t
    · subst heq
      exact .inl (Option.some.inj (hu.symm.trans (AList.lookup_insert w.calls)))
    · exact .inr ((AList.lookup_insert_ne heq).symm.trans hu)
  refine ⟨hw.sound, ?_, ?_, ?_, ?_, hw.agrees.2⟩
  · intro u other seen hu hwindow
    rcases hcases u other hu with rfl | hu
    · exact hseen seen hwindow
    · exact hw.seen u other seen hu hwindow
  · intro u seen hu
    rcases hcases u _ hu with hcall | hu
    · exact hclearing seen hcall.symm
    · exact hw.clearing u seen hu
  · intro hfree u mtime seen hu hm
    rcases hcases u _ hu with hcall | hu
    · exact hcached hfree mtime seen hcall.symm hm
    · exact hw.cached hfree u mtime seen hu hm
  · intro u key seen hu
    rcases hcases u _ hu with hcall | hu
    · exact hreturned key seen hcall.symm
    · exact hw.agrees.1 u key seen hu

/-- The lock is with a call that will set the cache. -/
theorem hold (hw : w.Inv) (t : Nat) : Inv { w with holder := some t } :=
  ⟨hw.sound, hw.seen, hw.clearing, nofun, hw.agrees.1, nofun⟩

/-- The cache gets a key that all calls in progress have seen, under a modification
    time that the file has with that key only. -/
theorem setCache (hw : w.Inv) (holder : Option Nat) {cache : AdminKeyFileCache}
    (hseen : ∀ t call seen, w.calls.lookup t = some call → call.window = some seen →
      cache.mtime ≠ none → cache.key ∈ seen)
    (htold : ∀ text, w.file.published = some text → cache.mtime = some text.mtime →
      cache.key = parseAdminKeyFromContent text.content) :
    Inv { w with cache := cache, holder := holder } := by
  refine ⟨hw.sound, hw.seen, hw.clearing, ?_, hw.agrees.1, ?_⟩
  · intro _ t mtime seen ht hm
    have hm : cache.mtime = some mtime := hm
    exact hseen t _ seen ht rfl (by rw [hm]; nofun)
  · intro _
    exact currentKey_eq_view_iff.mpr htold

/-- A new temp file, or a truncated one. -/
theorem create (hw : w.Inv) (text : KeyText) : (w.put (w.file.create text).1).Inv := by
  apply hw.put hw.sound.create
  intro other hother
  rw [hw.sound.published_create] at hother
  exact hw.told hother

theorem write (hw : w.Inv) {inode : Nat} {text : KeyText}
    (htold : w.file.path = some inode → w.Told text) : (w.put (w.file.write inode text)).Inv := by
  apply hw.put hw.sound.write
  intro other hother
  by_cases hpath : w.file.path = some inode
  · rw [ReplacedFile.published_write_self hpath] at hother
    cases hother
    exact htold hpath
  · rw [ReplacedFile.published_write_of_ne hpath] at hother
    exact hw.told hother

theorem rename (hw : w.Inv) {inode : Nat} {file : ReplacedFile KeyText}
    (htmp : w.file.tmp = some inode) (h : w.file.rename = some file)
    (htold : w.Told (w.file.contents inode)) : (w.put file).Inv := by
  apply hw.put (hw.sound.rename h)
  intro other hother
  obtain ⟨inode', htmp', hpublished⟩ := ReplacedFile.published_of_rename h
  rw [htmp] at htmp'
  cases htmp'
  rw [hpublished] at hother
  cases hother
  exact htold

theorem stat (hw : w.Inv) (timed : Bool) : (w.setCall t (w.statted timed)).Inv := by
  cases hfile : w.file.published with
  | none =>
    have hview : w.view = none := by rw [view, hfile, Option.bind_none]
    have hcall : w.statted timed = .clearing [w.view] := by simp only [statted, hfile]
    rw [hcall, hview]
    apply hw.setCall
    · intro seen h
      cases h
      rw [hview]
      exact List.mem_cons_self
    · intro seen h
      cases h
      exact List.mem_cons_self
    · exact fun _ _ _ h => nomatch h
    · exact fun _ _ h => nomatch h
  | some text =>
    have hcall : w.statted timed =
        .locking (if timed then some text.mtime else none) [w.view] := by
      simp only [statted, hfile]
    rw [hcall]
    apply hw.setCall
    · intro seen h
      cases h
      exact List.mem_cons_self
    · exact fun _ h => nomatch h
    · intro hfree mtime seen h hm
      obtain ⟨hmtime, rfl⟩ := KeyCall.locking.inj h
      -- the cache has the modification time of the file, and so its key
      have hkey : w.cache.key = w.view := by
        have htext : mtime = text.mtime := by
          split at hmtime
          · exact (Option.some.inj hmtime).symm
          · cases hmtime
        have hsame := currentKey_eq_view_iff.mp (hw.agrees.2 hfree) text hfile (htext ▸ hm)
        rw [hsame, view, hfile, Option.bind_some]
      rw [hkey]
      exact List.mem_cons_self
    · exact fun _ _ h => nomatch h

theorem clear (hw : w.Inv) {seen : List (Option String)}
    (ht : w.calls.lookup t = some (.clearing seen)) :
    (KeyHost.setCall { w with cache := ⟨none, none⟩ } t (.returned none seen)).Inv := by
  have hcleared : Inv { w with cache := ⟨none, none⟩ } :=
    hw.setCache w.holder (fun _ _ _ _ _ h => absurd rfl h) fun _ _ h => nomatch h
  apply hcleared.setCall
  · exact fun _ h => nomatch h
  · exact fun _ h => nomatch h
  · exact fun _ _ _ h => nomatch h
  · intro key seen' h
    cases h
    exact hw.clearing t seen ht

theorem locked (hw : w.Inv) {mtime : Option Nat} {seen : List (Option String)}
    (ht : w.calls.lookup t = some (.locking mtime seen)) (hfree : w.holder = none) :
    (w.locked t mtime seen).Inv := by
  rw [KeyHost.locked]
  split
  next hcached =>
    apply hw.setCall
    · exact fun _ h => nomatch h
    · exact fun _ h => nomatch h
    · exact fun _ _ _ h => nomatch h
    · intro key seen' h
      cases h
      obtain ⟨m, rfl⟩ := Option.isSome_iff_exists.mp hcached.1
      exact hw.cached hfree t m seen ht hcached.2
  next =>
    apply (hw.hold t).setCall
    · intro seen' h
      cases h
      exact hw.seen t _ seen ht rfl
    · exact fun _ h => nomatch h
    · exact fun _ _ _ h => nomatch h
    · exact fun _ _ h => nomatch h

/-- A read ends with a key that every call in progress has seen. -/
theorem remember (hw : w.Inv) {mtime : Option Nat} {key : Option String}
    {seen : List (Option String)}
    (hseen : ∀ u call seen, w.calls.lookup u = some call → call.window = some seen → key ∈ seen)
    (htold : ∀ text, w.file.published = some text → mtime = some text.mtime →
      key = parseAdminKeyFromContent text.content)
    (hmem : key ∈ seen) : (w.remember t mtime key seen).Inv := by
  have hcache : Inv { w with cache := ⟨key, mtime⟩, holder := none } :=
    hw.setCache none (fun u call seen hu hwindow _ => hseen u call seen hu hwindow) htold
  apply hcache.setCall
  · exact fun _ h => nomatch h
  · exact fun _ h => nomatch h
  · exact fun _ _ _ h => nomatch h
  · intro key' seen' h
    cases h
    exact hmem

theorem read (hw : w.Inv) {mtime : Option Nat} {seen : List (Option String)}
    (ht : w.calls.lookup t = some (.reading mtime seen)) :
    (w.remember t mtime w.view seen).Inv := by
  apply hw.remember
  · exact hw.seen
  · intro text htext _
    rw [view, htext, Option.bind_some]
  · exact hw.seen t _ seen ht rfl

/-- A read fails, and what it leaves in the cache is not asked for. -/
theorem readFail (hw : w.Inv) {mtime : Option Nat} {seen : List (Option String)}
    (htold : ∀ text, w.file.published = some text → mtime = some text.mtime →
      parseAdminKeyFromContent text.content = none) :
    ((w.shown none).remember t mtime none (none :: seen)).Inv := by
  apply (hw.shown none).remember
  · intro u call seen hu hwindow
    obtain ⟨old, -, rfl⟩ := Option.map_eq_some_iff.mp ((lookup_shown _ u).symm.trans hu)
    obtain ⟨earlier, -, rfl⟩ := window_see hwindow
    exact List.mem_cons_self
  · exact fun text htext hm => (htold text htext hm).symm
  · exact List.mem_cons_self

end Inv

-- ════════════════════════════════════════════════════════════════════════
-- One step
-- ════════════════════════════════════════════════════════════════════════

/-- **Step lemma**. -/
theorem Inv.next (hw : w.Inv) {a : KeyAction} (hc : w.Timely g a) (h : w.next g a = some w') :
    w'.Inv := by
  cases a with
  | tick elapsed =>
    cases h
    exact hw.tick _
  | botctl p command =>
    rw [KeyHost.next] at h
    split at h
    next =>
      split at h
      next =>
        cases h
        exact hw.setRun p _
      next => cases h
    next => cases h
  | create p =>
    rw [KeyHost.next] at h
    split at h
    next =>
      cases h
      exact (hw.create _).setRun p _
    next => cases h
  | write p =>
    rw [KeyHost.next] at h
    split at h
    next hp =>
      cases h
      simp only [Timely, hp] at hc
      exact (hw.write hc).setRun p _
    next => cases h
  | rename p =>
    rw [KeyHost.next] at h
    split at h
    next hp =>
      split at h
      next file hrename =>
        cases h
        obtain ⟨inode, htmp, -⟩ := ReplacedFile.published_of_rename hrename
        simp only [Timely, hp, htmp] at hc
        exact (hw.rename htmp hrename hc).setRun p _
      next =>
        cases h
        exact hw.setRun p _
    next => cases h
  | fail p =>
    rw [KeyHost.next] at h
    split at h
    next => cases h
    next => cases h
    next =>
      cases h
      exact hw.setRun p _
  | delete =>
    cases h
    exact hw.put hw.sound.remove fun _ h => nomatch h
  | stat t timed =>
    rw [KeyHost.next] at h
    split at h
    next =>
      cases h
      exact hw.stat timed
    next => cases h
  | lock t =>
    rw [KeyHost.next] at h
    split at h
    next ht =>
      cases h
      exact hw.clear ht
    next hfree ht =>
      cases h
      exact hw.locked ht hfree
    next => cases h
  | read t =>
    rw [KeyHost.next] at h
    split at h
    next ht =>
      cases h
      exact hw.read ht
    next => cases h
  | readFail t =>
    rw [KeyHost.next] at h
    split at h
    next ht =>
      cases h
      refine hw.readFail fun text htext hm => ?_
      simp only [Timely, ht, htext] at hc
      exact hc hm
    next => cases h

/-- A change of the published file that calls agree about is one the cache is told
    about. -/
theorem told_of_put {file : ReplacedFile KeyText} {text : KeyText}
    (hpublished : file.published = some text) (h : (w.put file).Agrees) : w.Told text :=
  (told_iff (w := w.put file) hpublished).mpr h.2

theorem timely_of_agrees {a : KeyAction} (h : w.next g a = some w') (hagrees : w'.Agrees) :
    w.Timely g a := by
  cases a with
  | write p =>
    dsimp only [Timely]
    split
    next key inode hp =>
      intro hpath
      simp only [KeyHost.next, hp, Option.some.injEq] at h
      subst h
      exact told_of_put (ReplacedFile.published_write_self hpath) hagrees
    next => trivial
  | rename p =>
    dsimp only [Timely]
    split
    next key inode hp htmp =>
      have hrename := ReplacedFile.rename_of_tmp htmp
      simp only [KeyHost.next, hp, hrename, Option.some.injEq] at h
      subst h
      exact told_of_put rfl hagrees
    next => trivial
  | readFail t =>
    dsimp only [Timely]
    split
    next mtime seen text ht htext =>
      intro hm
      simp only [KeyHost.next, ht, Option.some.injEq] at h
      subst h
      have hfree := currentKey_eq_view_iff.mp (hagrees.2 rfl) text htext
      exact (hfree hm).symm
    next => trivial
  | _ => trivial

-- ════════════════════════════════════════════════════════════════════════
-- Runs
-- ════════════════════════════════════════════════════════════════════════

/-- The steps of a call that runs alone. -/
def solo (w : KeyHost) (t : Nat) : List KeyAction :=
  match w.file.published with
  | none => [.stat t true, .lock t]
  | some text =>
    if w.cache.mtime = some text.mtime then [.stat t true, .lock t]
    else [.stat t true, .lock t, .read t]

theorem exec_solo (ht : w.calls.lookup t = none) (hfree : w.holder = none) :
    ∃ w', (adminKeyFile g).exec w (w.solo t) = some w' ∧
      w'.calls.lookup t = some (.returned w.currentKey [w.view]) := by
  cases hfile : w.file.published with
  | none =>
    have hview : w.view = none := by rw [view, hfile, Option.bind_none]
    simp only [solo, hfile, Machine.exec, adminKeyFile, next, ht, statted, Option.bind_some, setCall,
      AList.lookup_insert, hfree]
    refine ⟨_, rfl, ?_⟩
    rw [AList.lookup_insert, currentKey, hfile, hview]
  | some text =>
    by_cases hm : w.cache.mtime = some text.mtime
    · simp only [solo, hfile, Machine.exec, adminKeyFile, next, ht, statted,
        Option.bind_some, setCall, AList.lookup_insert, hfree, locked, if_true, Option.isSome_some,
        hm, and_self]
      refine ⟨_, rfl, ?_⟩
      rw [AList.lookup_insert, currentKey, hfile]
      simp only [hm, if_true]
    · simp only [solo, hfile, Machine.exec, adminKeyFile, next, ht, statted,
        Option.bind_some, setCall, AList.lookup_insert, hfree, locked, if_true, hm, and_false,
        if_false, remember]
      refine ⟨_, rfl, ?_⟩
      rw [AList.lookup_insert, currentKey, hfile]
      simp only [hm, if_false, view]

theorem inv_of_reachable (h : (adminKeyFile g).ReachableUnder (Timely g) w) : w.Inv :=
  h.invariant (fun _ => Inv.of_initial) fun _ _ _ hw hc hnext => hw.next hc hnext

/-- In every run of timely steps calls return what the file had, and a further step
    keeps it so exactly if it is timely too.  Every key a `botctl` process writes is
    read back. -/
theorem agrees_iff_timely (h : (adminKeyFile g).ReachableUnder (Timely g) w) :
    w.Agrees ∧ (∀ a w', (adminKeyFile g).next w a = some w' → (w'.Agrees ↔ w.Timely g a)) ∧
      ∀ key, validateKey key = .ok () →
        parseAdminKeyFromContent (keyFileContent key) = some key := by
  have hw := inv_of_reachable h
  refine ⟨hw.agrees, fun a w' hnext => ?_, fun key => parse_keyFileContent⟩
  exact ⟨timely_of_agrees hnext, fun hc => (hw.next hc hnext).agrees⟩

-- ════════════════════════════════════════════════════════════════════════
-- Rotations
-- ════════════════════════════════════════════════════════════════════════

/-- A broker next to a key file with the key `old`. -/
def rotated : KeyHost :=
  ⟨0, ⟨some 0, none, fun _ => ⟨keyFileContent "old", 0⟩, 1⟩, ∅, ⟨none, none⟩, none, ∅⟩

theorem rotated_initial : rotated.Initial := by
  refine ⟨⟨?_, nofun, fun _ _ => nofun⟩, rfl, rfl, rfl, rfl⟩
  intro inode h
  cases h
  decide

/-- `botctl admin-key set new`. -/
def setNew : List KeyAction := [.botctl 0 (.set "new"), .create 0, .write 0, .rename 0]

/-- A rotation behind a tick of the clock. -/
theorem agrees_iff_timely_rotation :
    ∃ w, w.calls.lookup 1 = some (.returned (some "new") [some "new"]) ∧
      w.Agrees ∧ (∀ a w', (adminKeyFile 1).next w a = some w' → (w'.Agrees ↔ w.Timely 1 a)) ∧
        ∀ key, validateKey key = .ok () →
          parseAdminKeyFromContent (keyFileContent key) = some key := by
  have hexec : ((adminKeyFile 1).execUnder (Timely 1) rotated
      (rotated.solo 0 ++ [.tick 1] ++ setNew ++ rotated.solo 1)).any (fun w => decide
        (w.calls.lookup 1 = some (.returned (some "new") [some "new"]))) = true := by
    decide +kernel
  obtain ⟨w, hrun, hw⟩ := Machine.exists_run_of_execUnder _ hexec
  exact ⟨w, of_decide_eq_true hw, agrees_iff_timely ⟨rotated, rotated_initial, hrun⟩⟩

/-- A rotation within one tick leaves the old key in force, and a read that fails
    behind one turns the key off. -/
theorem rotation_unnoticed :
    (∃ w, (adminKeyFile 1).Reachable w ∧ w.runs.lookup 0 = some (.returned (.ok ())) ∧
      w.calls.lookup 1 = some (.returned (some "old") [some "new"])) ∧
    ∃ w, (adminKeyFile 1).Reachable w ∧ w.runs.lookup 0 = some (.returned (.ok ())) ∧
      w.calls.lookup 2 = some (.returned none [some "new"]) := by
  have hstale : ((adminKeyFile 1).execUnder (fun _ _ => True) rotated
      (rotated.solo 0 ++ setNew ++ [.stat 1 true, .lock 1])).any (fun w => decide
        (w.runs.lookup 0 = some (.returned (.ok ())) ∧
          w.calls.lookup 1 = some (.returned (some "old") [some "new"]))) = true := by
    decide +kernel
  have hoff : ((adminKeyFile 1).execUnder (fun _ _ => True) rotated
      ([.tick 1] ++ setNew ++
        [.stat 1 true, .lock 1, .readFail 1, .stat 2 true, .lock 2])).any (fun w => decide
          (w.runs.lookup 0 = some (.returned (.ok ())) ∧
            w.calls.lookup 2 = some (.returned none [some "new"]))) = true := by
    decide +kernel
  obtain ⟨w, hrun, hw⟩ := Machine.exists_run_of_execUnder _ hstale
  obtain ⟨w', hrun', hw'⟩ := Machine.exists_run_of_execUnder _ hoff
  exact ⟨⟨w, ⟨rotated, rotated_initial, hrun⟩, of_decide_eq_true hw⟩,
    w', ⟨rotated, rotated_initial, hrun'⟩, of_decide_eq_true hw'⟩

end KeyHost

end Botwork.AuthBroker
