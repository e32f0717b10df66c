import Anonymization.Failure
import Anonymization.Text.Capital
/-!
# Information loss metrics

The engine minimises one of eight metrics; entropy unless the option names another.
-/

namespace Anonymization

/-- An information loss metric. -/
inductive Metric where
  | aecs
  | dm
  | dmstar
  | entropy
  | height
  | nmentropy
  | prec
  | nmprec
  deriving DecidableEq

namespace Metric

/-- All metrics. -/
def all : List Metric := [aecs, dm, dmstar, entropy, height, nmentropy, prec, nmprec]

/-- The name of a metric. -/
def name : Metric → Text
  | aecs => "AECS".toList
  | dm => "DM".toList
  | dmstar => "DMSTAR".toList
  | entropy => "ENTROPY".toList
  | height => "HEIGHT".toList
  | nmentropy => "NMENTROPY".toList
  | prec => "PREC".toList
  | nmprec => "NMPREC".toList

/-- The metric of the option, whatever the case of its letters. -/
def parseOption : Option Text → Except Failure Metric
  | none => .ok entropy
  | some t =>
    match all.find? fun m => m.name == Text.capitals (Text.trim t) with
    | some m => .ok m
    | none => .error (.unknownMetric t)

end Metric

end Anonymization
