import AsmOrigin.Classifier

/-!
The built-in corpus: four short function bodies, one per language, told apart by the runtime they
call.
-/

namespace AsmOrigin.Demo

/-- Version of the program. -/
def version : String := "0.1.0"

/-- Copies of each snippet to train on unless the caller says otherwise. -/
def defaultCopies : Nat := 50

def cSnippet : String := "
        push rbp
        mov rbp, rsp
        sub rsp, 16
        call malloc
        mov [rbp-8], rax
        call free
        mov rsp, rbp
        pop rbp
        ret
"

def cppSnippet : String := "
        push rbp
        mov rbp, rsp
        sub rsp, 16
        call _Znwm
        mov [rbp-8], rax
        call _ZdlPv
        mov rsp, rbp
        pop rbp
        ret
"

def pythonSnippet : String := "
        push rbp
        mov rbp, rsp
        call PyObject_CallMethod
        mov [rbp-8], rax
        call Py_INCREF
        call Py_DECREF
        mov rsp, rbp
        pop rbp
        ret
"

def goSnippet : String := "
        push rbp
        mov rbp, rsp
        call runtime.newobject
        mov [rbp-8], rax
        call runtime.gcWriteBarrier
        call fmt.Println
        mov rsp, rbp
        pop rbp
        ret
"

/-- Labelled listings. -/
def snippets : List (String × String) :=
  [("C", cSnippet), ("C++", cppSnippet), ("Python", pythonSnippet), ("Go", goSnippet)]

/-- Fingerprints of the snippets, each `copies` times. -/
def trainingSet (copies : Nat) : TrainingSet :=
  .ofPairs (snippets.flatMap fun s =>
    List.replicate copies (s.1, Fingerprint.ofListing .substring s.2))

/-- One snippet's label beside what the classifier makes of the snippet. -/
structure Outcome where
  expected : String
  prediction : Prediction
  deriving DecidableEq

def Outcome.isCorrect (o : Outcome) : Bool := o.expected == o.prediction.label

end AsmOrigin.Demo
