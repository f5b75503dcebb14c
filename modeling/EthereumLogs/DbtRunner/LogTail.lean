import EthereumLogs.Library.Mask
import EthereumLogs.Python.Lines
import EthereumLogs.Python.Utf8
import Mathlib.Data.List.Infix

namespace EthereumLogs.DbtRunner
open Python Mask

def dbtLogTailLines : ℕ := 80

inductive CapturedOutput where
  | none
  | text (s : Text)
  | bytes (bytes : List UInt8)
deriving DecidableEq, Repr

def secretTokens : List Text :=
  ["api_key".toList, "apikey".toList, "token".toList, "password".toList, "secret".toList,
   "rpc_url".toList]

def isSecretName (key : Text) : Bool := secretTokens.any fun token => token <:+: strLower key

def secretValues (env : List (Text × Text)) : List Text :=
  (env.filter fun (key, value) => value ≠ [] && isSecretName key).map Prod.snd

def stars : Text := ['*', '*', '*']

-- re.IGNORECASE also matches İ and ı with i, ſ with s and the Kelvin sign with k
def foldCase (c : Char) : Char :=
  if c.toNat = 0x130 ∨ c.toNat = 0x131 then 'i'
  else if c.toNat = 0x17f then 's'
  else if c.toNat = 0x212a then 'k'
  else c.toLower

def matchWord : Text → Text → Option Text
  | [], cs => some cs
  | w :: ws, c :: cs => if foldCase c = w then matchWord ws cs else none
  | _ :: _, [] => none

def dropSeparator : Text → Text
  | c :: cs => if c = '_' ∨ c = '-' then cs else c :: cs
  | [] => []

def parameterNames : List (Text → Option Text) :=
  [fun cs => (matchWord "api".toList cs).bind fun rest => matchWord "key".toList (dropSeparator rest),
   matchWord "token".toList, matchWord "password".toList, matchWord "secret".toList]

def matchName (cs : Text) : Option Text :=
  parameterNames.findSome? fun name => (name cs).bind (matchWord ['='])

def isValueChar (c : Char) : Bool := c ≠ '&' && !isSpace c

-- ([?&](?:api[_-]?key|token|password|secret)=)[^&\\s]+
def findParameter : Text → Option (ℕ × ℕ)
  | [] => none
  | c :: cs =>
    if c = '?' ∨ c = '&' then
      match matchName cs with
      | some rest =>
        let value := rest.takeWhile isValueChar
        if value = [] then none else some ((c :: cs).length - rest.length, value.length)
      | none => none
    else none

def hideParameters (tail : Text) : Text := scan stars findParameter 0 0 tail

def hideSecrets (secrets : List Text) (tail : Text) : Text :=
  secrets.foldl (fun tail secret => replaceAll secret stars tail) tail

def tailOf (text : Text) : Text :=
  let lines := splitlines text
  joinLines (lines.drop (lines.length - dbtLogTailLines))

def safeTail (text : Text) (env : List (Text × Text)) : Text :=
  hideParameters (hideSecrets (secretValues env) (tailOf text))

def safeLogTail (output : CapturedOutput) (env : List (Text × Text)) : Text :=
  match output with
  | .none => []
  | .text s => safeTail s env
  | .bytes bytes => safeTail (decodeUtf8 bytes) env

example : hideParameters "GET /?Api-Key=abc&TOKEN=x y?secret=&token=".toList =
    "GET /?Api-Key=***&TOKEN=*** y?secret=&token=".toList := by decide +kernel

variable {secret tail text : Text} {secrets : List Text} {env : List (Text × Text)}

def Unstarred (secret : Text) : Prop := ∀ c ∈ secret, c ∉ stars

theorem stars_ne : stars ≠ [] := by simp [stars]

theorem replaceAll_masked (old text : Text) : Masked stars false text (replaceAll old stars text) :=
  (scan_masked stars (findText old) text).2 0 0 (.inr rfl)

theorem hideParameters_masked (tail : Text) : Masked stars false tail (hideParameters tail) :=
  (scan_masked stars findParameter tail).2 0 0 (.inr rfl)

theorem hideSecrets_keeps_absent (hsecret : Unstarred secret) (h : ¬ secret <:+: tail) :
    ¬ secret <:+: hideSecrets secrets tail := by
  induction secrets generalizing tail with
  | nil => exact h
  | cons other secrets ih =>
    rw [hideSecrets, List.foldl_cons]
    refine ih ?_
    exact fun hin => h ((replaceAll_masked other tail).infix_of stars_ne hsecret hin)

theorem hideSecrets_hides (hmem : secret ∈ secrets) (hne : secret ≠ []) (hsecret : Unstarred secret) :
    ¬ secret <:+: hideSecrets secrets tail := by
  induction secrets generalizing tail with
  | nil => cases hmem
  | cons other secrets ih =>
    rw [hideSecrets, List.foldl_cons]
    rcases List.mem_cons.mp hmem with rfl | hmem
    · exact hideSecrets_keeps_absent hsecret (scan_removes hne stars_ne hsecret tail 0)
    · exact ih hmem

theorem star_unbroken : ∀ c ∈ stars, isLineBreak c = false := by
  intro c hc
  have hstar : c = '*' := by simpa [stars] using hc
  rw [hstar]
  rfl

theorem hideSecrets_breaks (secrets : List Text) (tail : Text) :
    lineBreaks (hideSecrets secrets tail) ≤ lineBreaks tail := by
  induction secrets generalizing tail with
  | nil => exact le_rfl
  | cons secret secrets ih =>
    rw [hideSecrets, List.foldl_cons]
    exact (ih _).trans ((replaceAll_masked secret tail).countP_le isLineBreak star_unbroken)

theorem tailOf_breaks (text : Text) : lineBreaks (tailOf text) ≤ dbtLogTailLines - 1 := by
  have hlines : ∀ l ∈ (splitlines text).drop ((splitlines text).length - dbtLogTailLines), Unbroken l :=
    fun l hl => splitlinesFrom_unbroken [] text (by simp [Unbroken]) l (List.mem_of_mem_drop hl)
  have hjoined := joinLines_breaks hlines
  rw [List.length_drop] at hjoined
  rw [tailOf]
  omega

theorem safeTail_breaks (text : Text) (env : List (Text × Text)) :
    lineBreaks (safeTail text env) ≤ dbtLogTailLines - 1 :=
  ((hideParameters_masked _).countP_le isLineBreak star_unbroken).trans
    ((hideSecrets_breaks _ _).trans (tailOf_breaks text))

theorem secretValues_nonempty (h : secret ∈ secretValues env) : secret ≠ [] := by
  obtain ⟨⟨key, value⟩, hmem, rfl⟩ := List.mem_map.mp h
  have hkept := (List.mem_filter.mp hmem).2
  simp only [Bool.and_eq_true, decide_eq_true_eq] at hkept
  exact hkept.1

structure SafeTail (env : List (Text × Text)) (tail : Text) : Prop where
  hidden : ∀ secret ∈ secretValues env, ¬ secret <:+: tail
  lines : (splitlines tail).length ≤ dbtLogTailLines
  newlines : tail.count '\n' < dbtLogTailLines

theorem safeTail_safe (henv : ∀ secret ∈ secretValues env, Unstarred secret) (text : Text) :
    SafeTail env (safeTail text env) := by
  have hbreaks := safeTail_breaks text env
  have hlimit : dbtLogTailLines = 80 := rfl
  constructor
  · intro secret hsecret hin
    have hshown := (hideParameters_masked _).infix_of stars_ne (henv secret hsecret) hin
    exact hideSecrets_hides hsecret (secretValues_nonempty hsecret) (henv secret hsecret) hshown
  · have hlength := splitlinesFrom_length [] (safeTail text env)
    rw [splitlines]
    omega
  · have hcount : (safeTail text env).count '\n' ≤ lineBreaks (safeTail text env) :=
      List.countP_mono_left fun c _ hc => by
        rw [beq_iff_eq.mp hc]
        rfl
    omega

theorem safeLogTail_safe (output : CapturedOutput) (env : List (Text × Text))
    (henv : ∀ secret ∈ secretValues env, '*' ∉ secret) : SafeTail env (safeLogTail output env) := by
  have hunstarred : ∀ secret ∈ secretValues env, Unstarred secret := by
    intro secret hsecret c hc hstar
    have hstar : c = '*' := by simpa [stars] using hstar
    exact henv secret hsecret (hstar ▸ hc)
  cases output with
  | none =>
    have hlimit : dbtLogTailLines = 80 := rfl
    refine ⟨fun secret hsecret hin => ?_, by simp [safeLogTail, splitlines, splitlinesFrom], ?_⟩
    · exact secretValues_nonempty hsecret (List.infix_nil.mp hin)
    · simp [safeLogTail, hlimit]
  | text s => exact safeTail_safe hunstarred s
  | bytes bytes => exact safeTail_safe hunstarred (decodeUtf8 bytes)

def leakyEnv : List (Text × Text) :=
  [("ETH_RPC_URL".toList, "https://n/ab".toList), ("API_KEY".toList, "ab".toList),
   ("PATH".toList, "/bin".toList)]

theorem safeLogTail_safe_leaky :
    SafeTail leakyEnv (safeLogTail (.text "GET https://n/abab?token=ab\r\nab".toList) leakyEnv) :=
  safeLogTail_safe (.text "GET https://n/abab?token=ab\r\nab".toList) leakyEnv (by decide)

end EthereumLogs.DbtRunner
