import Tagging.Unicode.Mark

/-!
# Accents

An accented letter is written either as one character or as a base letter followed by combining marks.
Both forms lose the accent: the single characters of the blocks Latin-1 and Latin Extended-A by a
table, combining marks by their class. Ligatures and the sharp s count as accented forms of the two
letters that they stand for.
-/

namespace Tagging.Accent

/-- Accented letters, grouped by what is left of them without the accent. -/
def groups : List (List Char × List Char) :=
  [(['À', 'Á', 'Â', 'Ã', 'Ä', 'Å', 'Ā', 'Ă', 'Ą'], ['A']),
   (['à', 'á', 'â', 'ã', 'ä', 'å', 'ā', 'ă', 'ą'], ['a']),
   (['Æ'], ['A', 'E']),
   (['æ'], ['a', 'e']),
   (['Ç', 'Ć', 'Ĉ', 'Ċ', 'Č'], ['C']),
   (['ç', 'ć', 'ĉ', 'ċ', 'č'], ['c']),
   (['Ď', 'Đ', 'Ð'], ['D']),
   (['ď', 'đ', 'ð'], ['d']),
   (['È', 'É', 'Ê', 'Ë', 'Ē', 'Ĕ', 'Ė', 'Ę', 'Ě'], ['E']),
   (['è', 'é', 'ê', 'ë', 'ē', 'ĕ', 'ė', 'ę', 'ě'], ['e']),
   (['Ĝ', 'Ğ', 'Ġ', 'Ģ'], ['G']),
   (['ĝ', 'ğ', 'ġ', 'ģ'], ['g']),
   (['Ĥ', 'Ħ'], ['H']),
   (['ĥ', 'ħ'], ['h']),
   (['Ì', 'Í', 'Î', 'Ï', 'Ĩ', 'Ī', 'Ĭ', 'Į', 'İ'], ['I']),
   (['ì', 'í', 'î', 'ï', 'ĩ', 'ī', 'ĭ', 'į', 'ı'], ['i']),
   (['Ĵ'], ['J']),
   (['ĵ'], ['j']),
   (['Ķ'], ['K']),
   (['ķ'], ['k']),
   (['Ĺ', 'Ļ', 'Ľ', 'Ŀ', 'Ł'], ['L']),
   (['ĺ', 'ļ', 'ľ', 'ŀ', 'ł'], ['l']),
   (['Ñ', 'Ń', 'Ņ', 'Ň'], ['N']),
   (['ñ', 'ń', 'ņ', 'ň'], ['n']),
   (['Ò', 'Ó', 'Ô', 'Õ', 'Ö', 'Ø', 'Ō', 'Ŏ', 'Ő'], ['O']),
   (['ò', 'ó', 'ô', 'õ', 'ö', 'ø', 'ō', 'ŏ', 'ő'], ['o']),
   (['Œ'], ['O', 'E']),
   (['œ'], ['o', 'e']),
   (['Ŕ', 'Ŗ', 'Ř'], ['R']),
   (['ŕ', 'ŗ', 'ř'], ['r']),
   (['Ś', 'Ŝ', 'Ş', 'Š'], ['S']),
   (['ś', 'ŝ', 'ş', 'š'], ['s']),
   (['ß'], ['s', 's']),
   (['Ţ', 'Ť', 'Ŧ'], ['T']),
   (['ţ', 'ť', 'ŧ'], ['t']),
   (['Ù', 'Ú', 'Û', 'Ü', 'Ũ', 'Ū', 'Ŭ', 'Ů', 'Ű', 'Ų'], ['U']),
   (['ù', 'ú', 'û', 'ü', 'ũ', 'ū', 'ŭ', 'ů', 'ű', 'ų'], ['u']),
   (['Ŵ'], ['W']),
   (['ŵ'], ['w']),
   (['Ý', 'Ŷ', 'Ÿ'], ['Y']),
   (['ý', 'ÿ', 'ŷ'], ['y']),
   (['Ź', 'Ż', 'Ž'], ['Z']),
   (['ź', 'ż', 'ž'], ['z'])]

/-- The base letters of an accented letter, and every other character itself. -/
def base (c : Char) : List Char :=
  match groups.find? (·.1.contains c) with
  | some group => group.2
  | none => [c]

/-- The text with accented letters replaced by their base letters and without nonspacing marks. -/
def drop (text : List Char) : List Char :=
  (text.flatMap base).filter fun c => !Unicode.isNonspacingMark c

end Tagging.Accent
