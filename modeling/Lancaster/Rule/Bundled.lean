import Lancaster.Rule.Compile

/-!
The rules that come with the stemmer: 115 endings of English, one entry a line.
-/
namespace Lancaster

def bundledLines : List String :=
  ["ai*2.       \x7b -ia > -  if intact \x7d",
   "a*1.        \x7b -a > -  if intact \x7d",
   "bb1.        \x7b -bb > -b \x7d",
   "city3s.     \x7b -ytic > -ys \x7d",
   "ci2>        \x7b -ic > -, restem \x7d",
   "cn1t>       \x7b -nc > -nt, restem \x7d",
   "dd1.        \x7b -dd > -d \x7d",
   "dei3y>      \x7b -ied > -y, restem \x7d",
   "deec2ss.    \x7b -ceed > -cess \x7d",
   "dee1.       \x7b -eed > -ee \x7d",
   "de2>        \x7b -ed > -, restem \x7d",
   "dooh4>      \x7b -hood > -, restem \x7d",
   "e1>         \x7b -e > -, restem \x7d",
   "feil1v.     \x7b -lief > -liev \x7d",
   "fi2>        \x7b -if > -, restem \x7d",
   "gni3>       \x7b -ing > -, restem \x7d",
   "gai3y.      \x7b -iag > -y \x7d",
   "ga2>        \x7b -ag > -, restem \x7d",
   "gg1.        \x7b -gg > -g \x7d",
   "ht*2.       \x7b -th > -  if intact \x7d",
   "hsiug5ct.   \x7b -guish > -ct \x7d",
   "hsi3>       \x7b -ish > -, restem \x7d",
   "i*1.        \x7b -i > -  if intact \x7d",
   "i1y>        \x7b -i > -y, restem \x7d",
   "ji1d.       \x7b -ij > -id \x7d",
   "juf1s.      \x7b -fuj > -fus \x7d",
   "ju1d.       \x7b -uj > -ud \x7d",
   "jo1d.       \x7b -oj > -od \x7d",
   "jeh1r.      \x7b -hej > -her \x7d",
   "jrev1t.     \x7b -verj > -vert \x7d",
   "jsim2t.     \x7b -misj > -mit \x7d",
   "jn1d.       \x7b -nj > -nd \x7d",
   "j1s.        \x7b -j > -s \x7d",
   "lbaifi6.    \x7b -ifiabl > - \x7d",
   "lbai4y.     \x7b -iabl > -y \x7d",
   "lba3>       \x7b -abl > -, restem \x7d",
   "lbi3.       \x7b -ibl > - \x7d",
   "lib2l>      \x7b -bil > -bl, restem \x7d",
   "lc1.        \x7b -cl > -c \x7d",
   "lufi4y.     \x7b -iful > -y \x7d",
   "luf3>       \x7b -ful > -, restem \x7d",
   "lu2.        \x7b -ul > - \x7d",
   "lai3>       \x7b -ial > -, restem \x7d",
   "lau3>       \x7b -ual > -, restem \x7d",
   "la2>        \x7b -al > -, restem \x7d",
   "ll1.        \x7b -ll > -l \x7d",
   "mui3.       \x7b -ium > - \x7d",
   "mu*2.       \x7b -um > -  if intact \x7d",
   "msi3>       \x7b -ism > -, restem \x7d",
   "mm1.        \x7b -mm > -m \x7d",
   "nois4j>     \x7b -sion > -j, restem \x7d",
   "noix4ct.    \x7b -xion > -ct \x7d",
   "noi3>       \x7b -ion > -, restem \x7d",
   "nai3>       \x7b -ian > -, restem \x7d",
   "na2>        \x7b -an > -, restem \x7d",
   "nee0.       \x7b -een > -een \x7d",
   "ne2>        \x7b -en > -, restem \x7d",
   "nn1.        \x7b -nn > -n \x7d",
   "pihs4>      \x7b -ship > -, restem \x7d",
   "pp1.        \x7b -pp > -p \x7d",
   "re2>        \x7b -er > -, restem \x7d",
   "rae0.       \x7b -ear > -ear \x7d",
   "ra2.        \x7b -ar > - \x7d",
   "ro2>        \x7b -or > -, restem \x7d",
   "ru2>        \x7b -ur > -, restem \x7d",
   "rr1.        \x7b -rr > -r \x7d",
   "rt1>        \x7b -tr > -t, restem \x7d",
   "rei3y>      \x7b -ier > -y, restem \x7d",
   "sei3y>      \x7b -ies > -y, restem \x7d",
   "sis2.       \x7b -sis > -s \x7d",
   "si2>        \x7b -is > -, restem \x7d",
   "ssen4>      \x7b -ness > -, restem \x7d",
   "ss0.        \x7b -ss > -ss \x7d",
   "suo3>       \x7b -ous > -, restem \x7d",
   "su*2.       \x7b -us > -  if intact \x7d",
   "s*1>        \x7b -s > -  if intact, restem \x7d",
   "s0.         \x7b -s > -s \x7d",
   "tacilp4y.   \x7b -plicat > -ply \x7d",
   "ta2>        \x7b -at > -, restem \x7d",
   "tnem4>      \x7b -ment > -, restem \x7d",
   "tne3>       \x7b -ent > -, restem \x7d",
   "tna3>       \x7b -ant > -, restem \x7d",
   "tpir2b.     \x7b -ript > -rib \x7d",
   "tpro2b.     \x7b -orpt > -orb \x7d",
   "tcud1.      \x7b -duct > -duc \x7d",
   "tpmus2.     \x7b -sumpt > -sum \x7d",
   "tpec2iv.    \x7b -cept > -ceiv \x7d",
   "tulo2v.     \x7b -olut > -olv \x7d",
   "tsis0.      \x7b -sist > -sist \x7d",
   "tsi3>       \x7b -ist > -, restem \x7d",
   "tt1.        \x7b -tt > -t \x7d",
   "uqi3.       \x7b -iqu > - \x7d",
   "ugo1.       \x7b -ogu > -og \x7d",
   "vis3j>      \x7b -siv > -j, restem \x7d",
   "vie0.       \x7b -eiv > -eiv \x7d",
   "vi2>        \x7b -iv > -, restem \x7d",
   "ylb1>       \x7b -bly > -bl, restem \x7d",
   "yli3y>      \x7b -ily > -y, restem \x7d",
   "ylp0.       \x7b -ply > -ply \x7d",
   "yl2>        \x7b -ly > -, restem \x7d",
   "ygo1.       \x7b -ogy > -og \x7d",
   "yhp1.       \x7b -phy > -ph \x7d",
   "ymo1.       \x7b -omy > -om \x7d",
   "ypo1.       \x7b -opy > -op \x7d",
   "yti3>       \x7b -ity > -, restem \x7d",
   "yte3>       \x7b -ety > -, restem \x7d",
   "ytl2.       \x7b -lty > -l \x7d",
   "yrtsi5.     \x7b -istry > - \x7d",
   "yra3>       \x7b -ary > -, restem \x7d",
   "yro3>       \x7b -ory > -, restem \x7d",
   "yfi3.       \x7b -ify > - \x7d",
   "ycn2t>      \x7b -ncy > -nt, restem \x7d",
   "yca3>       \x7b -acy > -, restem \x7d",
   "zi2>        \x7b -iz > -, restem \x7d",
   "zy1s.       \x7b -yz > -ys \x7d",
   "end0."]

def bundledText : Text := bundledLines.flatMap fun l => l.toList ++ ['\n']

def bundledOutcome : Outcome := compileText bundledText

/-- The table of a text that compiles; any other text has no rules. -/
def Outcome.table : Outcome → RuleTable
  | .ok c => c.table
  | .error _ => .empty

def bundledTable : RuleTable := bundledOutcome.table

end Lancaster
