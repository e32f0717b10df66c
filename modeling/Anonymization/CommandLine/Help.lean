import Anonymization.Text.Blank
/-!
# Usage and help

The texts that the command line shows of itself, line by line.
-/

namespace Anonymization.CommandLine

/-- The name of the program. -/
def programName : Text := "anonymization-cli".toList

/-- The lines of the usage. -/
def usageLines : List String := [
  "usage: anonymization-cli [-h] [-qi QUASIIDENTIFYING] [-se SENSITIVE]",
  "                         [-is INSENSITIVE] [-id IDENTIFYING] [-hi HIERARCHIES]",
  "                         [-d DATATYPE] [-c CRITERIA] [-m METRIC]",
  "                         [-s SUPPRESSION] [-pm [PRACTICALMONOTONICITY]]",
  "                         [-f FILE] [-db DATABASE] [-o OUTPUT]",
  "                         [-r RESEARCHSUBSET] [-sp SEPARATOR] [--runner RUNNER]",
  "                         [--java JAVA] [--config CONFIG] [-v]"]

/-- The lines of the help behind the usage. -/
def helpLines : List String := [
  "",
  "Anonymize a table according to a list of privacy criteria",
  "",
  "options:",
  "  -h, --help            show this help message and exit",
  "  -qi QUASIIDENTIFYING, --quasiidentifying QUASIIDENTIFYING",
  "                        names of the quasi identifying attributes, delimited",
  "                        by ','",
  "  -se SENSITIVE, --sensitive SENSITIVE",
  "                        names of the sensitive attributes, delimited by ','",
  "  -is INSENSITIVE, --insensitive INSENSITIVE",
  "                        names of the insensitive attributes, delimited by ','",
  "  -id IDENTIFYING, --identifying IDENTIFYING",
  "                        names of the identifying attributes, delimited by ','",
  "  -hi HIERARCHIES, --hierarchies HIERARCHIES",
  "                        hierarchies for the attributes, delimited by ','.",
  "                        Syntax:",
  "                        [attributname1=filename1,attributname2=filename2]",
  "  -d DATATYPE, --datatype DATATYPE",
  "                        datatypes of the attributes, delimited by ','. Syntax:",
  "                        [attributname1=STRING|DECIMAL(format)|INTEGER|DATE(for",
  "                        mat)]",
  "  -c CRITERIA, --criteria CRITERIA",
  "                        anonymization criteria, delimited by ','. Syntax: [x-",
  "                        ANONYMITY,(x,y)-",
  "                        PRESENCE,INCLUSION,attributname1=DISTINCT|ENTROPY|RECU",
  "                        RSIVE-(x|x,y)-",
  "                        DIVERSITY,attributname2=HIERARCHICAL|EQUALDISTANCE-",
  "                        (x)-CLOSENESS]",
  "  -m METRIC, --metric METRIC",
  "                        information loss metric: AECS / DM / DMSTAR / ENTROPY",
  "                        / HEIGHT / NMENTROPY / PREC / NMPREC (default:",
  "                        ENTROPY)",
  "  -s SUPPRESSION, --suppression SUPPRESSION",
  "                        share of outliers that may be suppressed, e.g. 0.05",
  "                        allows 5% (default: 0.0)",
  "  -pm [PRACTICALMONOTONICITY], --practicalmonotonicity [PRACTICALMONOTONICITY]",
  "                        if present, practical monotonicity is assumed",
  "  -f FILE, --file FILE  filename of the input data, read from STDIN if neither",
  "                        a file nor a database is given",
  "  -db DATABASE, --database DATABASE",
  "                        table to read the input data from. Syntax: [TYPE=MYSQL",
  "                        ,URL=value,PORT=value,USER=value,PASSWORD=value,DATABA",
  "                        SE=value,TABLE=value]",
  "  -o OUTPUT, --output OUTPUT",
  "                        filename of the anonymized output, written to STDOUT",
  "                        if omitted",
  "  -r RESEARCHSUBSET, --researchsubset RESEARCHSUBSET",
  "                        research subset, given as a file or as a query on the",
  "                        input. Syntax: [FILE=filename|QUERY=querystring]",
  "  -sp SEPARATOR, --separator SEPARATOR",
  "                        separator used in the data and hierarchy files, or",
  "                        DETECT to guess it from the input file (default: ;)",
  "  --runner RUNNER       path of the anonymization runner jar (default:",
  "                        $ARX_RUNNER)",
  "  --java JAVA           java executable used to start the runner (default:",
  "                        $ARX_JAVA or java)",
  "  --config CONFIG       JSON file with default values for the options above,",
  "                        keyed by their long names",
  "  -v, --verbose         log debug output"]

/-- The lines, each with a line feed. -/
def textOfLines (lines : List String) : Text :=
  lines.flatMap fun l => l.toList ++ ['\n']

/-- How the program is used. -/
def usage : Text := textOfLines usageLines

/-- The whole help. -/
def help : Text := textOfLines (usageLines ++ helpLines)

end Anonymization.CommandLine
